import NovaNas.Zfs.Encryption

/-!
# No key is lost

As long as no live dataset is initialized a second time, the escrow record of every dataset that
was created with a key opens to that key.
-/
namespace NovaNas.Zfs

open Fallible (bind_ok)

variable {m : Manager} {st st' : State} {full : Name}

/-- The assumptions on the TPM and on AES-GCM. -/
structure Manager.Works (m : Manager) : Prop where
  inverts : ∀ sealer ∈ m.sealer, sealer.Inverts
  opens : m.gcm.Opens

/-- The record holds the key. -/
def Manager.Holds (m : Manager) (record : WrappedKeyRecord) (key : RawKey) : Prop :=
  ∃ sealer, m.sealer = some sealer ∧
    Tpm.unwrapAEAD m.gcm sealer record.wrapped = .ok key.val

/-- The dataset exists, and `Initialize` created it with the key. -/
def State.Keyed (st : State) (d : Name) (key : RawKey) : Prop :=
  ∃ dataset ∈ st.datasets d, dataset.origin = some key

/-- Every dataset that was created with a key has its record. -/
def Escrowed (m : Manager) (st : State) : Prop :=
  ∀ d key, st.Keyed d key → ∃ secretKey record, encodeSecretKey d = .ok secretKey ∧
    st.secrets secretKey = some record ∧ m.Holds record key

/-! ### Single calls -/

theorem Escrowed.recover (escrowed : Escrowed m st) {key : RawKey} (keyed : st.Keyed full key) :
    m.recover full st = .ok key := by
  obtain ⟨secretKey, record, encoded, stored, sealer, configured, unwraps⟩ :=
    escrowed full key keyed
  simp only [Manager.recover, Manager.fetchRawKey, configured, encoded, Except.mapError, stored,
    unwraps, bind, Except.bind]
  exact dif_pos key.property

variable {answers : Answers}

theorem prepare_ok (works : m.Works) {spec : Option CreateSpec} {key : RawKey}
    {secretKey : List Char} {record : WrappedKeyRecord}
    (prepared : m.prepare full spec answers = .ok (key, secretKey, record)) :
    encodeSecretKey full = .ok secretKey ∧ m.Holds record key := by
  unfold Manager.prepare at prepared
  obtain ⟨_, -, prepared⟩ := bind_ok prepared
  cases configured : m.sealer with
  | none =>
    rw [configured] at prepared
    cases prepared
  | some sealer =>
    rw [configured] at prepared
    obtain ⟨rawKey, -, prepared⟩ := bind_ok prepared
    obtain ⟨wrapped, wraps, prepared⟩ := bind_ok prepared
    obtain ⟨encodedKey, encoded, prepared⟩ := bind_ok prepared
    cases prepared
    refine ⟨Fallible.mapError_ok encoded, sealer, configured, ?_⟩
    exact Tpm.unwrapAEAD_wrapAEAD (works.inverts sealer configured) works.opens
      (Fallible.mapError_ok wraps)

theorem splitParentName_eq {parent name : Name}
    (split : splitParentName full = some (parent, name)) : parent ++ '/' :: name = full := by
  rw [splitParentName] at split
  split at split
  next => cases split
  next c rest dropped =>
    cases split
    have slash : c = '/' := by
      have stops := List.head?_dropWhile_not (· ≠ '/') full.reverse
      rw [dropped] at stops
      simpa using stops
    have whole := List.takeWhile_append_dropWhile (p := (· ≠ '/')) (l := full.reverse)
    rw [dropped, slash] at whole
    have back := congrArg List.reverse whole
    simpa using back

variable {body : EncryptionInitRequest}

theorem initSpec_full {spec : CreateSpec} (ok : initSpec full body = .ok spec) :
    spec.full = full := by
  rw [initSpec] at ok
  obtain ⟨_, -, ok⟩ := bind_ok ok
  obtain ⟨_, -, ok⟩ := bind_ok ok
  obtain ⟨_, -, ok⟩ := bind_ok ok
  cases split : splitParentName full with
  | none =>
    rw [split] at ok
    cases ok
  | some both =>
    rw [split] at ok
    cases ok
    exact splitParentName_eq split

theorem createEncryptedArgs_name {spec : CreateSpec} {args : List String} {name : Name}
    (ok : createEncryptedArgs spec = .ok (args, name)) : name = spec.full := by
  rw [createEncryptedArgs] at ok
  obtain ⟨_, -, ok⟩ := bind_ok ok
  obtain ⟨_, -, ok⟩ := bind_ok ok
  obtain ⟨_, -, ok⟩ := bind_ok ok
  cases reserved : spec.properties.find? (·.1 ∈ reservedProperties) with
  | some =>
    rw [reserved] at ok
    cases ok
  | none =>
    rw [reserved] at ok
    obtain ⟨_, -, ok⟩ := bind_ok ok
    cases ok
    rfl

/-! ### What Initialize does -/

/-- The outcomes of a call of `Initialize` on the dataset. -/
inductive Outcome (m : Manager) (full : Name) (st : State) : State → Prop where
  /-- The request is refused before the first write. -/
  | refused : Outcome m full st st
  | created {key : RawKey} {secretKey : List Char} {record : WrappedKeyRecord}
      (encoded : encodeSecretKey full = .ok secretKey) (holds : m.Holds record key) :
      Outcome m full st
        ((st.setSecret secretKey (some record)).setDataset full (some ⟨some key, true⟩))
  /-- The record is deleted again. Whatever was stored under its key before is gone too. -/
  | rolledBack {secretKey : List Char} {st' : State}
      (encoded : encodeSecretKey full = .ok secretKey)
      (secrets : ∀ other, other ≠ secretKey → st'.secrets other = st.secrets other)
      (others : ∀ d, d ≠ full → st'.datasets d = st.datasets d)
      (here : ∀ dataset ∈ st'.datasets full,
        dataset.origin = none ∨ st.datasets full = some dataset) :
      Outcome m full st st'

theorem setSecret_other {key other : List Char} {record : Option WrappedKeyRecord}
    (ne : other ≠ key) : (st.setSecret key record).secrets other = st.secrets other :=
  Function.update_of_ne ne _ _

variable {d : Name}

theorem setDataset_other {dataset : Option Dataset} (ne : d ≠ full) :
    (st.setDataset full dataset).datasets d = st.datasets d :=
  Function.update_of_ne ne _ _

theorem zfsCreate_fails {name : Name} {key : RawKey} {outcome : CreateOutcome}
    (fails : st.zfsCreate name key outcome = (false, st')) :
    st'.secrets = st.secrets ∧ (∀ d, d ≠ name → st'.datasets d = st.datasets d) ∧
      ∀ dataset ∈ st'.datasets name, dataset.origin = none ∨ st.datasets name = some dataset := by
  unfold State.zfsCreate at fails
  split at fails
  next present =>
    cases fails
    exact ⟨rfl, fun _ _ => rfl, fun dataset here => .inr here⟩
  next absent =>
    rcases outcome with _ | made
    · cases fails
    · cases made with
      | false =>
        cases fails
        exact ⟨rfl, fun _ _ => rfl, fun dataset here => .inr here⟩
      | true =>
        cases fails
        refine ⟨rfl, fun d ne => setDataset_other ne, fun dataset here => .inl ?_⟩
        have same : some ⟨none, true⟩ = some dataset := by
          simpa [State.setDataset] using here
        cases same
        rfl

theorem zfsCreate_succeeds {name : Name} {key : RawKey} {outcome : CreateOutcome}
    (succeeds : st.zfsCreate name key outcome = (true, st')) :
    st' = st.setDataset name (some ⟨some key, true⟩) := by
  unfold State.zfsCreate at succeeds
  split at succeeds
  next => cases succeeds
  next =>
    rcases outcome with _ | made
    · cases succeeds
      rfl
    · cases made <;> cases succeeds

theorem initializeKey_outcome (works : m.Works) {spec : CreateSpec} (named : spec.full = full) :
    Outcome m full st (m.initializeKey full (some spec) answers st).2 := by
  cases prepared : m.prepare full (some spec) answers with
  | error =>
    simp only [Manager.initializeKey, prepared]
    exact .refused
  | ok parts =>
    obtain ⟨key, secretKey, record⟩ := parts
    obtain ⟨encoded, holds⟩ := prepare_ok works prepared
    cases arguments : createEncryptedArgs spec with
    | error =>
      simp only [Manager.initializeKey, prepared, arguments]
      refine .rolledBack encoded ?_ (fun _ _ => rfl) fun dataset here => .inr here
      intro other ne
      exact (setSecret_other ne).trans (setSecret_other ne)
    | ok pair =>
      obtain ⟨args, name⟩ := pair
      have sameName := (createEncryptedArgs_name arguments).trans named
      subst sameName
      rcases create : (st.setSecret secretKey (some record)).zfsCreate name key answers.create
        with ⟨done, st'⟩
      cases done with
      | true =>
        simp only [Manager.initializeKey, prepared, arguments, create, zfsCreate_succeeds create]
        exact .created encoded holds
      | false =>
        simp only [Manager.initializeKey, prepared, arguments, create]
        obtain ⟨secrets, others, here⟩ := zfsCreate_fails create
        refine .rolledBack encoded ?_ others here
        intro other ne
        rw [setSecret_other ne, secrets, setSecret_other ne]

theorem handleInitialize_outcome (works : m.Works) :
    Outcome m full st (m.handleInitialize full body answers st).2 := by
  rw [Manager.handleInitialize]
  cases ok : initSpec full body with
  | error => exact .refused
  | ok spec => exact initializeKey_outcome works (initSpec_full ok)

theorem handleInitialize_keyed {key : RawKey}
    (returned : m.handleInitialize full body answers st = (.ok key, st')) :
    st'.Keyed full key := by
  unfold Manager.handleInitialize at returned
  cases ok : initSpec full body with
  | error => simp [ok] at returned
  | ok spec =>
    simp only [ok, Manager.initializeKey] at returned
    cases prepared : m.prepare full (some spec) answers with
    | error => simp [prepared] at returned
    | ok parts =>
      obtain ⟨rawKey, secretKey, record⟩ := parts
      cases arguments : createEncryptedArgs spec with
      | error => simp [prepared, arguments] at returned
      | ok pair =>
        obtain ⟨args, name⟩ := pair
        have sameName := (createEncryptedArgs_name arguments).trans (initSpec_full ok)
        rcases create :
          (st.setSecret secretKey (some record)).zfsCreate name rawKey answers.create
          with ⟨done, after⟩
        cases done with
        | false => simp [prepared, arguments, create] at returned
        | true =>
          simp only [prepared, arguments, create, Prod.mk.injEq, Except.ok.injEq] at returned
          obtain ⟨rfl, rfl⟩ := returned
          refine ⟨⟨some rawKey, true⟩, ?_, rfl⟩
          simp [zfsCreate_succeeds create, State.setDataset, sameName]

/-! ### Runs -/

theorem not_keyed {key : RawKey} (unkeyed : ∀ dataset ∈ st.datasets full, dataset.origin = none) :
    ¬st.Keyed full key := by
  rintro ⟨dataset, here, origin⟩
  rw [unkeyed dataset here] at origin
  cases origin

theorem keyed_setDataset {key : RawKey} {dataset : Option Dataset} (ne : d ≠ full) :
    (st.setDataset full dataset).Keyed d key ↔ st.Keyed d key := by
  rw [State.Keyed, setDataset_other ne]
  rfl

/-- Loading and unloading keys does not change which key a dataset was made with. -/
theorem keyed_setLoaded {key : RawKey} {loaded : Bool} :
    (st.setLoaded full loaded).Keyed d key ↔ st.Keyed d key := by
  rw [State.setLoaded]
  by_cases same : d = full
  · subst same
    simp [State.Keyed, State.setDataset]
  · exact keyed_setDataset same

theorem Escrowed.of_keyed (escrowed : Escrowed m st) (secrets : st'.secrets = st.secrets)
    (keyed : ∀ d key, st'.Keyed d key → st.Keyed d key) : Escrowed m st' := by
  intro d key now
  rw [secrets]
  exact escrowed d key (keyed d key now)

/-- The record of another dataset is elsewhere. -/
theorem Escrowed.elsewhere (escrowed : Escrowed m st) {key : RawKey} {secretKey : List Char}
    (keyed : st.Keyed d key) (ne : d ≠ full) (encoded : encodeSecretKey full = .ok secretKey)
    (secrets : ∀ other, other ≠ secretKey → st'.secrets other = st.secrets other) :
    ∃ otherKey record, encodeSecretKey d = .ok otherKey ∧
      st'.secrets otherKey = some record ∧ m.Holds record key := by
  obtain ⟨otherKey, record, encodedOther, stored, holds⟩ := escrowed d key keyed
  refine ⟨otherKey, record, encodedOther, ?_, holds⟩
  rw [secrets otherKey, stored]
  intro eq
  exact ne (encodeSecretKey_inj encodedOther (eq ▸ encoded))

theorem Escrowed.initialized (escrowed : Escrowed m st)
    (unkeyed : ∀ dataset ∈ st.datasets full, dataset.origin = none)
    (outcome : Outcome m full st st') : Escrowed m st' := by
  intro d key keyed
  cases outcome with
  | refused => exact escrowed d key keyed
  | @created newKey secretKey record encoded holds =>
    by_cases same : d = full
    · subst same
      obtain ⟨dataset, here, origin⟩ := keyed
      have made : some ⟨some newKey, true⟩ = some dataset := by
        simpa [State.setDataset] using here
      cases made
      cases origin
      refine ⟨secretKey, record, encoded, ?_, holds⟩
      simp [State.setDataset, State.setSecret]
    · exact escrowed.elsewhere ((keyed_setDataset same).mp keyed) same encoded
        fun other ne => setSecret_other ne
  | rolledBack encoded secrets others kept =>
    have ne : d ≠ full := by
      intro same
      subst same
      obtain ⟨dataset, here, origin⟩ := keyed
      rcases kept dataset here with none | before
      · rw [none] at origin
        cases origin
      · exact not_keyed unkeyed ⟨dataset, before, origin⟩
    rw [State.Keyed, others d ne] at keyed
    exact escrowed.elsewhere keyed ne encoded secrets

theorem Outcome.keyed_other (outcome : Outcome m full st st') {key : RawKey} (ne : d ≠ full)
    (keyed : st.Keyed d key) : st'.Keyed d key := by
  cases outcome with
  | refused => exact keyed
  | created => exact (keyed_setDataset ne).mpr keyed
  | rolledBack encoded secrets others kept =>
    rw [State.Keyed, others d ne]
    exact keyed

theorem loadKey_state (m : Manager) (full : Name) (fails : Bool) (st : State) :
    (m.loadKey full fails st).2 = st ∨ (m.loadKey full fails st).2 = st.setLoaded full true := by
  unfold Manager.loadKey
  cases m.fetchRawKey full st with
  | error => exact .inl rfl
  | ok =>
    cases fails with
    | true => exact .inl rfl
    | false => exact .inr rfl

theorem unloadKey_state (full : Name) (fails : Bool) (st : State) :
    (unloadKey full fails st).2 = st ∨ (unloadKey full fails st).2 = st.setLoaded full false := by
  unfold unloadKey
  cases validateDatasetName full with
  | error => exact .inl rfl
  | ok =>
    cases fails with
    | true => exact .inl rfl
    | false => exact .inr rfl

theorem not_keyed_setDataset {key : RawKey} {dataset : Option Dataset}
    (unkeyed : ∀ present ∈ dataset, present.origin = none) :
    ¬(st.setDataset full dataset).Keyed full key := by
  apply not_keyed
  intro present here
  apply unkeyed
  simpa [State.setDataset] using here

theorem Escrowed.setDataset (escrowed : Escrowed m st) {dataset : Option Dataset}
    (unkeyed : ∀ present ∈ dataset, present.origin = none) :
    Escrowed m (st.setDataset full dataset) := by
  refine escrowed.of_keyed rfl ?_
  intro d key keyed
  by_cases same : d = full
  · subst same
    exact absurd keyed (not_keyed_setDataset unkeyed)
  · exact (keyed_setDataset same).mp keyed

theorem Escrowed.setLoaded (escrowed : Escrowed m st) {loaded : Bool} :
    Escrowed m (st.setLoaded full loaded) :=
  escrowed.of_keyed rfl fun _ _ => keyed_setLoaded.mp

theorem Escrowed.step (works : m.Works) {action : Action} (escrowed : Escrowed m st)
    (unused : fresh st action) (took : Zfs.step m st action = some st') : Escrowed m st' := by
  cases action with
  | initializeKey full body answers =>
    cases took
    exact escrowed.initialized unused (handleInitialize_outcome works)
  | loadKey full fails =>
    cases took
    rcases loadKey_state m full fails st with same | loaded
    · rwa [same]
    · rw [loaded]
      exact escrowed.setLoaded
  | unloadKey full fails =>
    cases took
    rcases unloadKey_state full fails st with same | loaded
    · rwa [same]
    · rw [loaded]
      exact escrowed.setLoaded
  | recover =>
    cases took
    exact escrowed
  | create full =>
    rw [Zfs.step] at took
    split at took
    next => cases took
    next =>
      cases took
      exact escrowed.setDataset (by simp)
  | destroy full =>
    cases took
    exact escrowed.setDataset (by simp)

/-- A dataset keeps the key it was made with until it is destroyed. -/
theorem keyed_step (works : m.Works) {action : Action} {key : RawKey} (keyed : st.Keyed d key)
    (unused : fresh st action) (alive : action ≠ .destroy d) (took : step m st action = some st') :
    st'.Keyed d key := by
  cases action with
  | initializeKey full body answers =>
    cases took
    apply (handleInitialize_outcome works).keyed_other _ keyed
    intro same
    subst same
    exact not_keyed unused keyed
  | loadKey full fails =>
    cases took
    rcases loadKey_state m full fails st with same | loaded
    · rwa [same]
    · rw [loaded]
      exact keyed_setLoaded.mpr keyed
  | unloadKey full fails =>
    cases took
    rcases unloadKey_state full fails st with same | loaded
    · rwa [same]
    · rw [loaded]
      exact keyed_setLoaded.mpr keyed
  | recover =>
    cases took
    exact keyed
  | create full =>
    rw [step] at took
    split at took
    next => cases took
    next absent =>
      cases took
      apply (keyed_setDataset _).mpr keyed
      intro same
      subst same
      obtain ⟨dataset, here, -⟩ := keyed
      rw [absent] at here
      cases here
  | destroy full =>
    cases took
    apply (keyed_setDataset _).mpr keyed
    intro same
    exact alive (same ▸ rfl)

open Interleaving (run Guarded run_induction)

/-- In every run that never initializes a live dataset of its own again, the key that a successful
`Initialize` returned can be recovered for as long as the dataset is not destroyed. -/
theorem recover_returns_key (works : m.Works) {before after : List Action} {s₁ s₂ s₃ : State}
    {d : Name} {body : EncryptionInitRequest} {answers : Answers} {key : RawKey}
    (unkeyed : ∀ d dataset, st.datasets d = some dataset → dataset.origin = none)
    (guarded : Guarded (step m) fresh st (before ++ .initializeKey d body answers :: after))
    (earlier : run (step m) st before = some s₁)
    (returned : m.handleInitialize d body answers s₁ = (.ok key, s₂))
    (later : run (step m) s₂ after = some s₃) (alive : .destroy d ∉ after) :
    m.recover d s₃ = .ok key := by
  have initial : Escrowed m st := by
    intro d key keyed
    exact absurd keyed (not_keyed (unkeyed d))
  have preserved : ∀ s a s', Escrowed m s → fresh s a → step m s a = some s' → Escrowed m s' :=
    fun s a s' escrowed unused took => escrowed.step works unused took
  have escrowed₁ := run_induction (Escrowed m) preserved initial guarded.before earlier
  obtain ⟨unused, rest⟩ := guarded.after earlier
  have took : step m s₁ (.initializeKey d body answers) = some s₂ := by
    rw [step, returned]
  have escrowed₂ := escrowed₁.step works unused took
  have escrowed₃ := run_induction (Escrowed m) preserved escrowed₂ (rest s₂ took) later
  -- The dataset itself lives on under the key.
  have keyed : s₃.Keyed d key := by
    refine run_induction (fun s => s.Keyed d key) ?_ (handleInitialize_keyed returned)
      ((rest s₂ took).avoiding alive) later
    intro s a s' keyed guard stepped
    exact keyed_step works keyed guard.1 guard.2 stepped
  exact escrowed₃.recover keyed

/-! ### A manager without secrecy -/

def openManager : Manager where
  gcm := ⟨fun _ _ plaintext => plaintext, fun _ _ ciphertext => .ok ciphertext⟩
  sealer := some
    ⟨fun _ plaintext => .ok (1 :: plaintext), fun blob => .ok (blob.drop 1)⟩

theorem openManager_works : openManager.Works where
  inverts := by
    intro sealer configured
    cases configured
    refine ⟨?_, ?_⟩
    · intro _ plaintext blob done
      cases done
      rfl
    · intro _ plaintext blob done
      cases done
      exact List.cons_ne_nil _ _
  opens := fun _ _ _ => rfl

def State.empty : State := ⟨fun _ => none, fun _ => none⟩

def tankHome : Name := "tank/home".toList

def constantKey : RawKey := ⟨List.replicate 32 7, by decide⟩

def filesystemBody : EncryptionInitRequest := ⟨"filesystem", 0, "", []⟩

def constantAnswers : Answers :=
  ⟨.ok constantKey, ⟨.ok ⟨List.replicate 32 3, by decide⟩, 0, .ok ⟨List.replicate 12 5, by decide⟩⟩,
    "2026-01-01T00:00:00Z", .succeeds⟩

def State.initializeHome (st : State) : Except Failure RawKey × State :=
  openManager.handleInitialize tankHome filesystemBody constantAnswers st

theorem initializeHome_returns : State.empty.initializeHome.1 = .ok constantKey := by
  rfl

/-- The key of a new dataset survives that it is unloaded and loaded again. -/
theorem recover_returns_key_home :
    ∃ s₃, run (step openManager) State.empty.initializeHome.2
        [.unloadKey tankHome false, .loadKey tankHome false] = some s₃ ∧
      openManager.recover tankHome s₃ = .ok constantKey := by
  have unkeyed : ∀ d dataset, State.empty.datasets d = some dataset → dataset.origin = none := nofun
  have returned : openManager.handleInitialize tankHome filesystemBody constantAnswers .empty =
      (.ok constantKey, State.empty.initializeHome.2) :=
    Prod.ext initializeHome_returns rfl
  have guarded : Guarded (step openManager) fresh .empty
      ([] ++ [.initializeKey tankHome filesystemBody constantAnswers, .unloadKey tankHome false,
        .loadKey tankHome false]) :=
    ⟨nofun, fun _ _ => ⟨trivial, fun _ _ => ⟨trivial, fun _ _ => trivial⟩⟩⟩
  refine ⟨_, rfl, ?_⟩
  exact recover_returns_key openManager_works unkeyed guarded rfl returned rfl (by simp)

/-- A second request for the dataset fails, and takes the key of the first one with it. -/
theorem second_initialize_loses_key :
    ∃ s₁ s₂, openManager.handleInitialize tankHome filesystemBody constantAnswers .empty =
        (.ok constantKey, s₁) ∧
      openManager.handleInitialize tankHome filesystemBody constantAnswers s₁ =
        (.error (.zfs "create"), s₂) ∧
      s₂.Keyed tankHome constantKey ∧
      openManager.recover tankHome s₂ =
        .error (.secretNotFound "zfs-keys/tank/home".toList) := by
  refine ⟨State.empty.initializeHome.2, State.empty.initializeHome.2.initializeHome.2,
    Prod.ext initializeHome_returns rfl, Prod.ext ?_ rfl, ⟨⟨some constantKey, true⟩, ?_, rfl⟩, ?_⟩
  all_goals rfl

end NovaNas.Zfs
