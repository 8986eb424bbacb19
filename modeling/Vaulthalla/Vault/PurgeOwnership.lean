import Vaulthalla.Vault.UpstreamPurge

namespace Vaulthalla
namespace Vault
namespace UpstreamPurge

open Foundation Transition Function Option
open State (erased step)

/-!
# Whose objects a purge deletes

The question for other vaults on the bucket is answered once, and the answer
is not kept true: a vault with another API key for the same server can be bound
to the bucket while it is emptied, and every page is deleted whole.  The
question also misses a vault whose API key has another region or another
spelling of the endpoint, and whatever a vault has left in the bucket that is no
longer bound to it.

Where neither happens, the bucket holds objects of the purged vault and of no
other vault from the answer to the end of the pass.
-/

variable {Vault ApiKey : Type}

/-! ## Where the pass stands -/

/-- The vault whose row is being read, until the other vaults have been asked for. -/
def Control.reading : Control Vault ApiKey -> Option Vault
  | .claimed vault | .examined vault _ => some vault
  | _ => none

/-- The API key that the controller will be made with. -/
def Control.awaitedKey : Control Vault ApiKey -> Option ApiKey
  | .examined _ binding | .cleared _ binding => some binding.key
  | _ => none

/-- The vault that is purged and the bucket that is emptied, once no other vault was found there. -/
def State.purged (state : State Vault ApiKey) : Option (Vault × Place) :=
  match state.pass with
  | .cleared vault binding => (placeOf state.keys binding).map fun place => (vault, place)
  | .emptying vault place _ => some (vault, place)
  | _ => none

/-! ## What a pass may rely on -/

/-- The place is used by the given vault only. -/
structure Exclusive (state : State Vault ApiKey) (vault : Vault) (place : Place) : Prop where
  alone : forall other, other ≠ vault -> state.place other ≠ some place
  own : forall object, object ∈ state.objects place -> forall writer, object.writer = some writer -> writer = vault

def Held (state : State Vault ApiKey) : Control Vault ApiKey -> Prop
  | .claimed vault => (state.vaults vault).stage = .purging
  | .examined vault binding =>
    (state.vaults vault).stage = .purging ∧
      ((state.vaults vault).binding = some binding ∨ state.keys binding.key = none)
  | .cleared vault binding => forall place, placeOf state.keys binding = some place -> Exclusive state vault place
  | .emptying vault place _ => Exclusive state vault place
  | _ => True

def Erasure.Own (erasure : Erasure Vault) : Prop :=
  forall writer, erasure.object.writer = some writer -> writer = erasure.vault

structure Sound (state : State Vault ApiKey) : Prop where
  known : forall vault, (state.vaults vault).binding ≠ none -> vault ∈ state.ids
  held : Held state state.pass
  own : forall erasure, erasure ∈ state.erased -> erasure.Own

theorem sound_initial : Sound (initial : State Vault ApiKey) where
  known := fun _ bound => absurd rfl bound
  held := trivial
  own := fun _ isErasure => by cases isErasure

variable {state next : State Vault ApiKey} {place : Place} {vault : Vault} {control : Control Vault ApiKey}
  {row : VaultRow ApiKey}

theorem Sound.bound (sound : Sound state) (isPlace : state.place vault = some place) : vault ∈ state.ids := by
  apply sound.known
  intro isNone
  simp [State.place, isNone] at isPlace

theorem Exclusive.mono (exclusive : Exclusive state vault place)
    (places : forall other, other ≠ vault -> next.place other = some place -> state.place other = some place)
    (objects : forall object, object ∈ next.objects place ->
      object ∈ state.objects place ∨ forall writer, object.writer = some writer -> writer = vault) :
    Exclusive next vault place where
  alone := fun other isOther isPlace => exclusive.alone other isOther (places other isOther isPlace)
  own := by
    intro object isObject
    rcases objects object isObject with earlier | own
    · exact exclusive.own object earlier
    · exact own

theorem Sound.reading (sound : Sound state) (isReading : state.pass.reading = some vault) :
    (state.vaults vault).stage = .purging := by
  have held := sound.held
  cases isPass : state.pass with
  | claimed claimed =>
    simp only [isPass, Control.reading, some.injEq] at isReading
    rw [isPass] at held
    exact isReading ▸ held
  | examined examined binding =>
    simp only [isPass, Control.reading, some.injEq] at isReading
    rw [isPass] at held
    exact isReading ▸ held.1
  | _ => simp [isPass, Control.reading] at isReading

theorem Sound.exclusive (sound : Sound state) (target : state.purged = some (vault, place)) :
    Exclusive state vault place := by
  have held := sound.held
  unfold State.purged at target
  split at target
  · rename_i isPass
    rw [isPass] at held
    rcases map_eq_some_iff.mp target with ⟨found, isFound, same⟩
    cases same
    exact held _ isFound
  · rename_i isPass
    rw [isPass] at held
    cases target
    exact held
  · cases target

/-- A step that leaves the pass where it is keeps what the pass relies on, if it leaves the row that is being read,
binds no other vault to the place and puts no object of another vault there. -/
theorem Held.mono (held : Held state state.pass) (samePass : next.pass = state.pass)
    (rows : forall vault, state.pass.reading = some vault -> (state.vaults vault).stage = .purging ->
      (next.vaults vault).stage = .purging ∧ forall binding, (state.vaults vault).binding = some binding ->
        (next.vaults vault).binding = some binding ∨ next.keys binding.key = none)
    (keys : forall key, state.pass.awaitedKey = some key -> next.keys key = state.keys key ∨ next.keys key = none)
    (places : forall vault place, state.purged = some (vault, place) -> forall other, other ≠ vault ->
      next.place other = some place -> state.place other = some place)
    (objects : forall vault place, state.purged = some (vault, place) -> forall object, object ∈ next.objects place ->
      object ∈ state.objects place ∨ forall writer, object.writer = some writer -> writer = vault) :
    Held next next.pass := by
  rw [samePass]
  cases isPass : state.pass <;> rw [isPass] at held
  case claimed vault =>
    exact (rows vault (by rw [isPass]; rfl) held).1
  case examined vault binding =>
    rcases rows vault (by rw [isPass]; rfl) held.1 with ⟨isPurging, bindings⟩
    refine ⟨isPurging, ?_⟩
    rcases held.2 with isBound | dropped
    · exact bindings binding isBound
    · rcases keys binding.key (by rw [isPass]; rfl) with same | gone
      · exact .inr (same.trans dropped)
      · exact .inr gone
  case cleared vault binding =>
    intro place isPlace
    rcases keys binding.key (by rw [isPass]; rfl) with same | gone
    · have before : placeOf state.keys binding = some place := by
        rw [placeOf, ← same]
        exact isPlace
      have target : state.purged = some (vault, place) := by simp [State.purged, isPass, before]
      exact (held place before).mono (places vault place target) (objects vault place target)
    · simp [placeOf, gone] at isPlace
  case emptying vault place page =>
    have target : state.purged = some (vault, place) := by simp [State.purged, isPass]
    exact Exclusive.mono held (places vault place target) (objects vault place target)
  case idle | emptied | finishing => trivial

theorem Held.of_same (held : Held state control) (keys : next.keys = state.keys) (vaults : next.vaults = state.vaults)
    (objects : next.objects = state.objects) : Held next control := by
  have exclusive : forall vault place, Exclusive state vault place -> Exclusive next vault place := by
    intro vault place isExclusive
    refine isExclusive.mono ?_ ?_
    · intro other _ isPlace
      rwa [State.place, vaults, keys] at isPlace
    · intro object isObject
      rw [objects] at isObject
      exact .inl isObject
  cases control with
  | claimed vault =>
    simp only [Held, vaults]
    exact held
  | examined vault binding =>
    simp only [Held, vaults, keys]
    exact held
  | cleared vault binding =>
    simp only [Held, keys]
    exact fun place isPlace => exclusive vault place (held place isPlace)
  | emptying vault place page => exact exclusive vault place held
  | idle | emptied | finishing => trivial

theorem Sound.setPass (sound : Sound state) (held : Held state control) : Sound { state with pass := control } :=
  ⟨sound.known, held.of_same rfl rfl rfl, sound.own⟩

/-! ## Steps outside the pass -/

/-- A change of the objects at one place, by a vault that is bound there or by nobody. -/
theorem Sound.setObjects (sound : Sound state) {objects : List (Object Vault)} (own : forall object, object ∈ objects ->
      object ∈ state.objects place ∨ forall writer, object.writer = some writer -> state.place writer = some place) :
    Sound { state with objects := update state.objects place objects } := by
  refine ⟨sound.known, ?_, sound.own⟩
  refine .mono sound.held rfl (fun _ _ isPurging => ⟨isPurging, fun _ => .inl⟩)
    (fun _ _ => .inl rfl) (fun _ _ _ _ _ => id) ?_
  intro vault target isTarget object isObject
  change object ∈ update state.objects place objects target at isObject
  by_cases isPlace : target = place
  · subst isPlace
    rw [update_self] at isObject
    rcases own object isObject with earlier | bound
    · exact .inl earlier
    · right
      intro writer isWriter
      by_contra isOther
      exact (sound.exclusive isTarget).alone writer isOther (bound writer isWriter)
  · rw [update_of_ne isPlace] at isObject
    exact .inl isObject

theorem Sound.dropKey [DecidableEq ApiKey] (sound : Sound state) (key : ApiKey) :
    Sound { state with
      keys := update state.keys key none
      vaults := fun vault =>
        { state.vaults vault with binding := (state.vaults vault).binding.filter fun binding => binding.key ≠ key } } := by
  refine ⟨?_, ?_, sound.own⟩
  · intro vault bound
    refine sound.known vault ?_
    intro isNone
    simp [isNone] at bound
  · refine .mono sound.held rfl ?_ ?_ ?_ (fun _ _ _ _ => .inl)
    · intro vault _ isPurging
      refine ⟨isPurging, ?_⟩
      intro binding isBound
      by_cases isKey : binding.key = key
      · right
        simp [isKey]
      · left
        simp [isBound, isKey]
    · intro awaited _
      by_cases isKey : awaited = key
      · right
        simp [isKey]
      · left
        exact update_of_ne isKey _ _
    · intro purged place _ other _ isPlace
      rcases bind_eq_some_iff.mp isPlace with
        ⟨binding, isKept, (bound : placeOf (update state.keys key none) binding = some place)⟩
      rcases filter_eq_some_iff.mp isKept with ⟨isBinding, isOtherKey⟩
      rw [placeOf, update_of_ne (by simpa using isOtherKey)] at bound
      exact bind_eq_some_iff.mpr ⟨binding, isBinding, bound⟩

/-- Deleting a key of an exclusive place deletes objects of its vault, and leaves the place to it. -/
theorem Sound.purgeObject (sound : Sound state) {page rest : List Str}
    (isPass : state.pass = .emptying vault place page) (key : Str) :
    Sound { state.purgeObject vault place key with pass := .emptying vault place rest } := by
  have exclusive : Exclusive state vault place := sound.exclusive (by simp [State.purged, isPass])
  refine ⟨sound.known, ?_, ?_⟩
  · refine exclusive.mono (fun _ _ => id) ?_
    intro object isObject
    left
    simp only [State.purgeObject, State.eraseObject, update_self] at isObject
    exact (List.mem_filter.mp isObject).1
  · intro erasure isErasure
    rcases List.mem_append.mp isErasure with fresh | earlier
    · rcases List.mem_map.mp fresh with ⟨object, isObject, rfl⟩
      exact exclusive.own object (List.mem_filter.mp isObject).1
    · exact sound.own erasure earlier

variable [DecidableEq Vault]

/-- The vault is not bound to a bucket that is emptied for another one. -/
def State.keepsAway (state : State Vault ApiKey) (vault : Vault) (binding : Binding ApiKey) : Bool :=
  state.purged.all fun target => vault == target.1 || placeOf state.keys binding != some target.2

/-- A change of one vault: it is known if it is bound, it is not the one that is being read, and it is not bound to
the bucket that is emptied for another one. -/
theorem Sound.setVault (sound : Sound state) (known : row.binding ≠ none -> vault ∈ state.ids)
    (reading : state.pass.reading = some vault ->
      row.stage = .purging ∧ row.binding = (state.vaults vault).binding)
    (away : row.binding = (state.vaults vault).binding ∨ row.binding.all (state.keepsAway vault)) :
    Sound (state.setVault vault row) := by
  have others : forall other, other ≠ vault -> (state.setVault vault row).vaults other = state.vaults other := by
    intro other isOther
    exact update_of_ne isOther _ _
  have changed : (state.setVault vault row).vaults vault = row := update_self _ _ _
  refine ⟨?_, ?_, sound.own⟩
  · intro other bound
    by_cases isVault : other = vault
    · subst isVault
      rw [changed] at bound
      exact known bound
    · rw [others other isVault] at bound
      exact sound.known other bound
  · refine .mono sound.held rfl ?_ (fun _ _ => .inl rfl) ?_ (fun _ _ _ _ => .inl)
    · intro read isReading isPurging
      by_cases isVault : read = vault
      · subst isVault
        rw [changed, (reading isReading).1, (reading isReading).2]
        exact ⟨rfl, fun _ => .inl⟩
      · rw [others read isVault]
        exact ⟨isPurging, fun _ => .inl⟩
    · intro purged place target other isOther isPlace
      by_cases isVault : other = vault
      · subst isVault
        rw [State.place, changed] at isPlace
        rcases away with same | keepsAway
        · rw [same] at isPlace
          exact isPlace
        · rcases bind_eq_some_iff.mp isPlace with ⟨binding, isBinding, bound⟩
          have apart : placeOf state.keys binding ≠ some place := by
            simpa [isBinding, State.keepsAway, target, isOther] using keepsAway
          exact absurd bound apart
      · rw [State.place, others other isVault] at isPlace
        exact isPlace

/-- A change that leaves the binding, of a vault that is not being read or stays claimed. -/
theorem Sound.setVault_of_same (sound : Sound state) (same : row.binding = (state.vaults vault).binding)
    (stage : (state.vaults vault).stage = .purging -> row.stage = .purging) : Sound (state.setVault vault row) := by
  refine sound.setVault ?_ ?_ (.inl same)
  · rw [same]
    exact sound.known vault
  · intro isReading
    exact ⟨stage (sound.reading isReading), same⟩

/-! ## Undisturbed passes -/

/-- Every other vault at the place is one that the query finds, and the objects of other vaults there are theirs. -/
def State.visible (state : State Vault ApiKey) (vault : Vault) (binding : Binding ApiKey) (place : Place) : Bool :=
  (state.ids.all fun other => other == vault || state.place other != some place || state.sharesBucket binding other) &&
    (state.objects place).all fun object =>
      object.writer.all fun writer => writer == vault || state.place writer == some place

/-- No other vault was found, and those at the place would have been. -/
theorem exclusive_of_visible (sound : Sound state) {binding : Binding ApiKey}
    (isBound : (state.vaults vault).binding = some binding) (isAlone : state.otherVaultsOnBucket vault = [])
    (visible : state.visible vault binding place) : Exclusive state vault place := by
  simp only [State.visible, Bool.and_eq_true, List.all_eq_true] at visible
  have alone : forall other, other ≠ vault -> state.place other ≠ some place := by
    intro other isOther isPlace
    have known := sound.bound isPlace
    have shares : state.sharesBucket binding other := by
      simpa [isOther, isPlace] using visible.1 other known
    have found : other ∈ state.otherVaultsOnBucket vault := by
      simp [State.otherVaultsOnBucket, isBound, known, isOther, shares]
    rw [isAlone] at found
    cases found
  refine ⟨alone, ?_⟩
  intro object isObject writer isWriter
  by_contra isOther
  refine alone writer isOther ?_
  simpa [isWriter, isOther] using visible.2 object isObject

variable [DecidableEq ApiKey]

/-- The steps under which a pass deletes objects of its own vault only. -/
def State.undisturbed (state : State Vault ApiKey) : Label Vault ApiKey -> Bool
  | .setKey key row =>
    state.pass.awaitedKey != some key &&
      state.purged.all fun target =>
        row.server != target.2.server ||
          state.ids.all fun other => other == target.1 ||
            (state.vaults other).binding.all fun binding => binding.key != key || binding.bucket != target.2.bucket
  | .create vault binding => state.keepsAway vault binding
  | .rebind vault binding => state.pass.reading != some vault && state.keepsAway vault binding
  | .pass .checkOthers =>
    match state.pass with
    | .examined vault binding => (placeOf state.keys binding).all fun place => state.visible vault binding place
    | _ => true
  | _ => true

theorem Sound.setKey (sound : Sound state) {key : ApiKey} {row : KeyRow}
    (undisturbed : state.undisturbed (.setKey key row)) :
    Sound { state with keys := update state.keys key (some row) } := by
  simp only [State.undisturbed, Bool.and_eq_true, bne_iff_ne, ne_eq] at undisturbed
  rcases undisturbed with ⟨notAwaited, away⟩
  refine ⟨sound.known, ?_, sound.own⟩
  refine .mono sound.held rfl (fun _ _ isPurging => ⟨isPurging, fun _ => .inl⟩) ?_ ?_
    (fun _ _ _ _ => .inl)
  · intro awaited isAwaited
    left
    apply update_of_ne
    rintro rfl
    exact notAwaited isAwaited
  · intro purged place target other isOther isPlace
    rcases bind_eq_some_iff.mp isPlace with
      ⟨binding, (isBinding : (state.vaults other).binding = some binding),
        (bound : placeOf (update state.keys key (some row)) binding = some place)⟩
    by_cases isKey : binding.key = key
    · have arrives : row.server = place.server ∧ binding.bucket = place.bucket := by
        simp only [placeOf, isKey, update_self, map_some, some.injEq] at bound
        exact ⟨bound ▸ rfl, bound ▸ rfl⟩
      have known := sound.known other (by rw [isBinding]; simp)
      simp only [target, all_some, arrives.1, bne_self_eq_false, Bool.false_or, List.all_eq_true] at away
      have apart := away other known
      simp [isOther, isBinding, isKey, arrives.2] at apart
    · rw [placeOf, update_of_ne isKey] at bound
      exact bind_eq_some_iff.mpr ⟨binding, isBinding, bound⟩

/-! ## Runs -/

theorem Sound.passStep (sound : Sound state) {event : PassEvent Vault}
    (undisturbed : state.undisturbed (.pass event)) (taken : state.passStep event = some next) : Sound next := by
  have held := sound.held
  unfold State.passStep at taken
  split at taken
  case h_1 isPass =>
    rcases guarded taken with ⟨_, rfl⟩
    refine .setPass ?_ ?_
    · exact sound.setVault_of_same rfl fun _ => rfl
    · split
      · simp [Held, State.setVault]
      · trivial
  case h_2 vault isPass =>
    rw [isPass] at held
    dsimp only at taken
    split at taken
    · cases taken
      exact sound.setPass trivial
    · rename_i binding isAllowed
      cases taken
      exact sound.setPass ⟨held, .inl (filter_eq_some_iff.mp isAllowed).1⟩
  case h_3 vault binding isPass =>
    rw [isPass] at held
    split at taken
    · rename_i isAlone
      cases taken
      refine sound.setPass ?_
      intro place isPlace
      have isVisible : state.visible vault binding place := by
        simpa [State.undisturbed, isPass, isPlace] using undisturbed
      rcases held.2 with isBound | dropped
      · exact exclusive_of_visible sound isBound isAlone isVisible
      · simp [placeOf, dropped] at isPlace
    · cases taken
      exact sound.setPass trivial
  case h_4 vault binding isPass =>
    rw [isPass] at held
    split at taken
    · cases taken
      exact sound.setPass trivial
    · rename_i place isPlace
      cases taken
      exact sound.setPass (held place isPlace)
  case h_5 vault place isPass =>
    rw [isPass] at held
    split at taken
    · cases taken
      exact sound.setPass trivial
    · cases taken
      exact sound.setPass held
  case h_6 vault place key rest isPass =>
    cases taken
    exact sound.purgeObject isPass key
  case h_7 vault isPass =>
    cases taken
    refine .setPass ?_ trivial
    exact sound.setVault_of_same rfl id
  case h_8 vault isPass =>
    cases taken
    refine .setPass ?_ trivial
    refine sound.setVault (fun bound => absurd rfl bound) ?_ (.inr rfl)
    intro isReading
    simp [isPass, Control.reading] at isReading
  case h_9 =>
    cases taken
    exact sound.setPass trivial
  case h_10 => cases taken

theorem Sound.step (sound : Sound state) {label : Label Vault ApiKey} (undisturbed : state.undisturbed label)
    (taken : state.step label = some next) : Sound next := by
  cases label with
  | setKey key row =>
    cases taken
    exact sound.setKey undisturbed
  | dropKey key =>
    cases taken
    exact sound.dropKey key
  | protect place isProtected =>
    cases taken
    exact ⟨sound.known, sound.held.of_same rfl rfl rfl, sound.own⟩
  | create vault binding =>
    rcases guarded taken with ⟨isFree, rfl⟩
    have listed : Sound { state with ids := vault :: state.ids } :=
      ⟨fun other bound => List.mem_cons_of_mem vault (sound.known other bound), sound.held.of_same rfl rfl rfl,
        sound.own⟩
    refine listed.setVault (fun _ => List.mem_cons_self) ?_ (.inr ?_)
    · intro isReading
      have isPurging := sound.reading isReading
      simp [isFree.1] at isPurging
    · exact undisturbed
  | rebind vault binding =>
    rcases guarded taken with ⟨isThere, rfl⟩
    simp only [State.undisturbed, Bool.and_eq_true, bne_iff_ne, ne_eq] at undisturbed
    refine sound.setVault (fun _ => isThere.1) ?_ (.inr undisturbed.2)
    exact fun isReading => absurd isReading undisturbed.1
  | setAdopted vault adopted =>
    cases taken
    exact sound.setVault_of_same rfl id
  | schedule vault deleteUpstream =>
    rcases guarded taken with ⟨isLive, rfl⟩
    exact sound.setVault_of_same rfl (by simp [isLive])
  | restore vault =>
    rcases guarded taken with ⟨isPending, rfl⟩
    exact sound.setVault_of_same rfl (by simp [isPending])
  | expedite vault deleteUpstream =>
    rcases guarded taken with ⟨_, rfl⟩
    exact sound.setVault_of_same rfl id
  | remove vault =>
    rcases guarded taken with ⟨isLive, rfl⟩
    refine sound.setVault (fun bound => absurd rfl bound) ?_ (.inr rfl)
    intro isReading
    have isPurging := sound.reading isReading
    simp [isLive] at isPurging
  | write vault key =>
    rcases map_eq_some_iff.mp taken with ⟨place, isPlace, rfl⟩
    refine sound.setObjects ?_
    intro object isObject
    rcases List.mem_cons.mp isObject with rfl | earlier
    · right
      rintro writer ⟨⟩
      exact isPlace
    · exact .inl (List.mem_filter.mp earlier).1
  | foreignWrite place key =>
    cases taken
    refine sound.setObjects ?_
    intro object isObject
    rcases List.mem_cons.mp isObject with rfl | earlier
    · right
      rintro writer ⟨⟩
    · exact .inl (List.mem_filter.mp earlier).1
  | erase place key =>
    cases taken
    refine sound.setObjects ?_
    exact fun object isObject => .inl (List.mem_filter.mp isObject).1
  | pass event => exact sound.passStep undisturbed taken

def bucketName : Str := [98]

def objectName : Str := [111]

/-- Two API keys for one server, the second with the given spelling of its endpoint and region. -/
def twoKeys (endpoint region : Str) : List (Label Bool Bool) :=
  [.setKey false { endpoint := some (str "https://minio.local:9000"), region := [], server := [] },
    .setKey true { endpoint := some endpoint, region := region, server := [] }]

def sameKeys : List (Label Bool Bool) :=
  twoKeys (str "https://minio.local:9000") []

/-- The first vault writes an object and is deleted with its upstream data. -/
def firstVault : List (Label Bool Bool) :=
  [.create false { key := false, bucket := bucketName }, .write false objectName, .schedule false true]

/-- The second vault is bound to the same bucket and writes an object. -/
def secondVault : List (Label Bool Bool) :=
  [.create true { key := true, bucket := bucketName }, .write true (objectName ++ objectName)]

def askPass : List (Label Bool Bool) :=
  [.pass (.claim false), .pass .examine, .pass .checkOthers]

def emptyPass : List (Label Bool Bool) :=
  [.pass .connect, .pass .list, .pass .deleteNext]

/-- The second vault comes once the pass has ended. -/
def inTurn : List (Label Bool Bool) :=
  sameKeys ++ firstVault ++ askPass ++ emptyPass ++ [.pass .stop] ++ secondVault

/-- Runs in which the object of the second vault is deleted: that vault is bound after the question for other vaults, or
is not found because its API key has another region or spells the endpoint otherwise. -/
def foreignRuns : List (List (Label Bool Bool)) :=
  [sameKeys ++ firstVault ++ askPass ++ secondVault ++ emptyPass,
    twoKeys (str "https://minio.local:9000") (str "eu") ++ firstVault ++ secondVault ++ askPass ++ emptyPass,
    twoKeys (str "https://MinIO.local:9000") [] ++ firstVault ++ secondVault ++ askPass ++ emptyPass]

end UpstreamPurge
end Vault
end Vaulthalla
