import NovaNas.Plugins.Rows

/-!
# Previews

What a user is shown before they agree to an installation. The preview stops at the first entry of
the tarball that is plainly called `manifest.yaml`; the installation unpacks everything and is left
with the last entry that lands there.
-/
namespace NovaNas.Plugins

open Fallible (failIf)
open Program (Ends)

def manifestCap : Nat := 2 ^ 20

/-- The size and the contents of an entry that the preview takes for the manifest. -/
def Entry.plainManifest (entry : Entry) : Option (Nat × Document) :=
  match entry.kind with
  | .regular size document =>
    if entry.name = "manifest.yaml" ∨ entry.name = "./manifest.yaml" then some (size, document)
    else none
  | _ => none

def readManifestFromTarball (pkg : Package) : Except String Document :=
  match pkg.entries.findSome? Entry.plainManifest with
  | some (size, document) =>
    if size > manifestCap then
      .error ("plugins: manifest.yaml exceeds " ++ toString manifestCap ++ " bytes")
    else .ok document
  | none => .error (pkg.damage.getD "plugins: tarball: missing manifest.yaml at root")

/-- `PreviewPlugin`, once the tarball is there and its signature is verified. -/
def previewManifest (semver : Semver) (name : String) (pkg : Package) : Except String Plugin := do
  let document ← readManifestFromTarball pkg
  let manifest ← parseManifest semver document
  failIf (manifest.name ≠ name)
    ("plugins: manifest name " ++ quoted manifest.name ++ " != requested " ++ quoted name)
  return manifest

/-! ### Two readings of a package -/

/-- The manifest with the display category that it leaves out. -/
def Plugin.filled (p : Plugin) : Plugin :=
  if p.displayCategory = .unset then
    { p with displayCategory := defaultDisplayCategoryFor p.category }
  else p

/-- The first entry that is plainly called `manifest.yaml` and the last regular one whose path comes
to it say the same. -/
def Package.OneManifest (pkg : Package) : Prop :=
  ∀ size first last, pkg.entries.findSome? Entry.plainManifest = some (size, .ok first) →
    pkg.manifest = some (.ok last) → first.filled = last.filled

variable {m : Manager} {o : Outside} {name : String} {pkg : Package} {w w' : World}
  {semver : Semver} {shown manifest : Plugin}

theorem parseManifest_decoded {document : Document}
    (parsed : parseManifest semver document = .ok manifest) :
    ∃ decoded, document = .ok decoded ∧ manifest = decoded.filled := by
  cases document with
  | error err => cases parsed
  | ok decoded =>
    refine ⟨decoded, rfl, ?_⟩
    change (decoded.filled.validate semver).map (fun _ => decoded.filled) = .ok manifest at parsed
    cases checked : decoded.filled.validate semver with
    | error err => simp [checked, Except.map] at parsed
    | ok u => simpa [checked, Except.map, eq_comm] using parsed

theorem previewManifest_ok (previewed : previewManifest semver name pkg = .ok shown) :
    ∃ size first, pkg.entries.findSome? Entry.plainManifest = some (size, .ok first) ∧
      shown = first.filled := by
  obtain ⟨document, read, rest⟩ := Fallible.bind_ok previewed
  obtain ⟨manifest, parsed, rest⟩ := Fallible.bind_ok rest
  obtain ⟨_, -, returned⟩ := Fallible.bind_ok rest
  cases returned
  obtain ⟨first, rfl, same⟩ := parseManifest_decoded parsed
  rw [readManifestFromTarball] at read
  split at read
  next size document found =>
    split at read
    · cases read
    · cases read
      exact ⟨size, first, found, same⟩
  next => cases read

theorem unpackProvision_ok {p : Provisioned}
    (ends : Ends (Effect o) (unpackProvision m name pkg) w (.ok p) w') :
    ∃ last, pkg.manifest = some (.ok last) ∧ p.manifest = last.filled := by
  rcases ends_unpackProvision ends with ⟨err, failed, -⟩ | ⟨x, between, unpacked, outcome⟩
  · cases failed
  rcases outcome with ⟨err, failed, -⟩ | ⟨manifest, parsed, -, rest⟩
  · cases failed
  obtain ⟨faults, ⟨_, tree, extracted, same, -⟩ | ⟨_, _, -, same, -⟩⟩ := unpacked
  · cases same
    obtain ⟨rfl, -⟩ := provisionManifest_ok rest
    obtain ⟨last, document, filled⟩ := parseManifest_decoded parsed
    exact ⟨last, document ▸ (extractTarball_ok extracted).1, filled⟩
  · cases same

/-- The preview shows what is installed just where the two entries agree. -/
theorem preview_shows_installed_iff (m : Manager) (o : Outside) (name : String) (pkg : Package)
    (w w' : World) (shown : Plugin) (p : Provisioned)
    (previewed : previewManifest m.semver name pkg = .ok shown)
    (installed : Ends (Effect o) (unpackProvision m name pkg) w (.ok p) w') :
    shown = p.manifest ↔ pkg.OneManifest := by
  obtain ⟨size, first, found, rfl⟩ := previewManifest_ok previewed
  obtain ⟨last, landed, same⟩ := unpackProvision_ok installed
  rw [same]
  constructor
  · intro agree size' first' last' found' landed'
    cases found.symm.trans found'
    cases landed.symm.trans landed'
    exact agree
  · intro one
    exact one size first last found landed

/-! ### Small packages -/

def harmless : Plugin := basicPlugin "gallery" "1.0.0"

/-- Two manifests, of which the first is shown and the second is installed. -/
def twofold : Package :=
  ⟨[⟨"manifest.yaml", .regular 1 (.ok harmless)⟩,
    ⟨"./manifest.yaml", .regular 1 (.ok { harmless with version := "2.0.0" })⟩], none⟩

def smallManager : Manager := ⟨exactVersions, true, true⟩

def nowhere : Outside := ⟨.unconfigured, fun _ => true⟩

theorem unpacks_smoothly (pkg : Package) (p : Provisioned)
    (result : ((unpackProvision smallManager "gallery" pkg).run.exec (smooth nowhere) .empty).1 =
      .ok p) :
    ∃ w', Ends (Effect nowhere) (unpackProvision smallManager "gallery" pkg) .empty (.ok p) w' := by
  have ran := Program.run_exec (smooth_effect nowhere)
    (unpackProvision smallManager "gallery" pkg).run .empty
  rw [result] at ran
  exact ⟨_, ran⟩

theorem single_manifest_shown :
    previewManifest exactVersions "gallery" harmless.packed = .ok harmless ∧
      ∃ w', Ends (Effect nowhere) (unpackProvision smallManager "gallery" harmless.packed) .empty
        (.ok ⟨harmless, false, []⟩) w' ∧ (harmless = harmless ↔ harmless.packed.OneManifest) := by
  have previewed : previewManifest exactVersions "gallery" harmless.packed = .ok harmless := by
    rfl
  obtain ⟨w', ends⟩ := unpacks_smoothly harmless.packed ⟨harmless, false, []⟩ rfl
  exact ⟨previewed, w', ends,
    preview_shows_installed_iff smallManager nowhere "gallery" _ _ _ _ _ previewed ends⟩

theorem second_manifest_installed :
    previewManifest exactVersions "gallery" twofold = .ok harmless ∧
      (∃ w', Ends (Effect nowhere) (unpackProvision smallManager "gallery" twofold) .empty
        (.ok ⟨{ harmless with version := "2.0.0" }, false, []⟩) w') ∧
      harmless ≠ { harmless with version := "2.0.0" } :=
  ⟨rfl, unpacks_smoothly twofold _ rfl, by decide⟩

end NovaNas.Plugins
