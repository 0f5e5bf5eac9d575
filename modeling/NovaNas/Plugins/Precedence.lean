import NovaNas.Base.Sorting
import NovaNas.Plugins.Marketplaces

/-!
# Precedence of marketplaces

Where no marketplace is named, the enabled ones are asked in order, locked ones first and then by
the time of their registration. The search goes on after any error. A name that a marketplace lists
can so be taken from one behind it.
-/
namespace NovaNas.Plugins

/-- A row of the marketplaces' table. -/
structure MarketplaceRow extends Marketplace where
  locked : Bool
  /-- `added_at`, in microseconds. -/
  addedAt : Nat

/-- `ListEnabledMarketplaces`, in the order `locked DESC, added_at ASC`. -/
def listEnabled (rows : List MarketplaceRow) : List MarketplaceRow :=
  let enabled := rows.filter (·.enabled)
  Sorting.sortBy MarketplaceRow.addedAt (enabled.filter (·.locked)) ++
    Sorting.sortBy MarketplaceRow.addedAt (enabled.filter fun row => !row.locked)

/-- `MultiMarketplaceClient.FindVersion` with an empty marketplace id. -/
def findVersion (rows : List MarketplaceRow) (down : List String) (name version : String) :
    Except String (IndexPlugin × IndexVersion × MarketplaceRow) :=
  searchEnabled MarketplaceRow.toMarketplace down name version none (listEnabled rows)

/-! ### Owners -/

def Marketplace.lists (m : Marketplace) (name : String) : Bool := m.index.any (·.name = name)

/-- The first marketplace, in the order of the search, whose index lists the name. -/
def owner (rows : List MarketplaceRow) (name : String) : Option MarketplaceRow :=
  (listEnabled rows).find? fun row => row.lists name

/-- The marketplace can be reached, and the first plugin of that name in its index has the version,
or any version if none is asked for. -/
def Marketplace.offers (m : Marketplace) (down : List String) (name version : String) : Bool :=
  !down.contains m.id &&
    match m.index.find? (·.name = name) with
    | none => false
    | some plugin =>
      if version = "" then !plugin.versions.isEmpty
      else plugin.versions.any (·.version = version)

variable {rows : List MarketplaceRow} {down : List String} {name version : String}
  {firstErr : Option String}

theorem findVersion_eq_ok_iff {m : Marketplace} :
    (∃ found, m.findVersion down name version = .ok found) ↔ m.offers down name version = true := by
  rw [Marketplace.findVersion, Marketplace.offers]
  by_cases unreachable : m.id ∈ down
  · simp [unreachable]
  · rw [if_neg unreachable, Index.findVersion]
    cases m.index.find? (·.name = name) with
    | none => simp
    | some plugin =>
      cases versions : plugin.versions with
      | nil => simp [versions]
      | cons newest others =>
        by_cases any : version = ""
        · simp [versions, any, unreachable]
        · cases found : (newest :: others).find? (·.version = version) with
          | none =>
            have absent : ¬(newest :: others).any (·.version = version) = true := by
              rw [List.any_eq_true]
              rintro ⟨v, member, same⟩
              exact List.find?_eq_none.mp found v member same
            simp only [versions, found, any, if_false]
            simp [absent, unreachable]
          | some listed =>
            have there : (newest :: others).any (·.version = version) = true :=
              List.any_eq_true.mpr
                ⟨listed, List.mem_of_find?_eq_some found, by simpa using List.find?_some found⟩
            simp only [versions, found, any, if_false]
            simp [there, unreachable]

theorem lists_of_offers {m : Marketplace} (offers : m.offers down name version = true) :
    m.lists name = true := by
  rw [Marketplace.offers, Bool.and_eq_true] at offers
  cases found : m.index.find? (·.name = name) with
  | none => simp [found] at offers
  | some plugin =>
    exact List.any_eq_true.mpr
      ⟨plugin, List.mem_of_find?_eq_some found, by simpa using List.find?_some found⟩

/-- The row that answers is the first that offers. -/
theorem searchEnabled_ok_iff {listed : List MarketplaceRow} {row : MarketplaceRow} :
    (∃ plugin v, searchEnabled MarketplaceRow.toMarketplace down name version firstErr listed =
      .ok (plugin, v, row)) ↔
        listed.find? (fun row => row.offers down name version) = some row := by
  induction listed generalizing firstErr with
  | nil => simp [searchEnabled]
  | cons first rest ih =>
    rw [searchEnabled]
    cases answer : first.toMarketplace.findVersion down name version with
    | ok found =>
      have offers := findVersion_eq_ok_iff.mp ⟨found, answer⟩
      simp [offers, eq_comm]
    | error err =>
      have refuses : ¬first.offers down name version = true := by
        intro offers
        obtain ⟨found, answer'⟩ := findVersion_eq_ok_iff.mpr offers
        cases answer.symm.trans answer'
      simpa [refuses] using ih

/-- The owner answers whenever anyone does. -/
def OwnerAnswers (rows : List MarketplaceRow) (down : List String) (name version : String) : Prop :=
  (∃ row ∈ rows, row.enabled = true ∧ row.offers down name version = true) →
    ∀ first, owner rows name = some first → first.offers down name version = true

theorem mem_listEnabled {row : MarketplaceRow} :
    row ∈ listEnabled rows ↔ row ∈ rows ∧ row.enabled = true := by
  simp only [listEnabled, List.mem_append, Sorting.mem_sortBy, List.mem_filter]
  cases row.locked <;> simp

/-- Of two properties of which the one implies the other, the first elements that have them are the
same just where the first with the weaker one has the stronger one as well. -/
theorem find_same_iff {α : Type} {l : List α} {strong weak : α → Bool}
    (implies : ∀ a, strong a = true → weak a = true) :
    (∀ a, l.find? strong = some a → l.find? weak = some a) ↔
      ((∃ a ∈ l, strong a = true) → ∀ a, l.find? weak = some a → strong a = true) := by
  constructor
  · rintro same ⟨a, member, holds⟩ b first
    obtain ⟨c, found⟩ := Option.isSome_iff_exists.mp
      (List.find?_isSome.mpr ⟨a, member, holds⟩)
    have both := same c found
    rw [first] at both
    exact Option.some.inj both ▸ List.find?_some found
  · intro answers a found
    have holds := List.find?_some found
    have member := List.mem_of_find?_eq_some found
    obtain ⟨b, first⟩ := Option.isSome_iff_exists.mp
      (List.find?_isSome.mpr ⟨a, member, implies a holds⟩)
    have strongFirst := answers ⟨a, member, holds⟩ b first
    -- nothing before the first weak one is strong
    obtain ⟨-, before, after, rfl, none_⟩ := List.find?_eq_some_iff_append.mp first
    have same : (before ++ b :: after).find? strong = some b := by
      refine List.find?_eq_some_iff_append.mpr ⟨strongFirst, before, after, rfl, fun c there => ?_⟩
      by_contra stronger
      simpa [implies c (by simpa using stronger)] using none_ c there
    rw [first, ← found, same]

/-- A plugin comes from its owner just where the owner answers whenever anyone does. -/
theorem from_owner_iff (rows : List MarketplaceRow) (down : List String) (name version : String) :
    (∀ plugin v row, findVersion rows down name version = .ok (plugin, v, row) →
      owner rows name = some row) ↔ OwnerAnswers rows down name version := by
  have answered (row : MarketplaceRow) :
      (∃ plugin v, findVersion rows down name version = .ok (plugin, v, row)) ↔
        (listEnabled rows).find? (fun row => row.offers down name version) = some row :=
    searchEnabled_ok_iff
  have offered : (∃ row ∈ rows, row.enabled = true ∧ row.offers down name version = true) ↔
      ∃ row ∈ listEnabled rows, row.offers down name version = true := by
    simp only [mem_listEnabled, and_assoc]
  rw [OwnerAnswers, offered]
  refine Iff.trans ?_ (find_same_iff fun _ => lists_of_offers)
  constructor
  · intro owned row found
    obtain ⟨plugin, v, found⟩ := (answered row).mpr found
    exact owned plugin v row found
  · intro owned plugin v row found
    exact owned row ((answered row).mp ⟨plugin, v, found⟩)

/-! ### A name taken over -/

def official : MarketplaceRow :=
  ⟨⟨"1", "official", true, [⟨"gallery", [⟨"1.0.0", none⟩]⟩]⟩, true, 0⟩

def community : MarketplaceRow :=
  ⟨⟨"2", "community", true, [⟨"gallery", [⟨"9.9.9", none⟩]⟩]⟩, false, 1⟩

/-- While the official marketplace cannot be reached, its plugin comes from the other one. -/
theorem outage_changes_owner :
    owner [official, community] "gallery" = some official ∧
      ∃ plugin v, findVersion [official, community] ["1"] "gallery" "" = .ok (plugin, v, community) :=
  ⟨rfl, _, _, rfl⟩

end NovaNas.Plugins
