import Vaulthalla.Share.DownloadLimit

namespace Vaulthalla
namespace Share
namespace DownloadLimit

open Foundation Slot Option
open Transition (run Along run_induction guarded)
open Pool (total total_set total_append total_add total_le_total forall_set forall_append)

/-!
# The limit on a link's downloads

A slot that is allowed after its download was counted may release bytes, and
its unit is in the counter of the link.  A websocket transfer releases bytes
from its first chunk on, and its unit is missing from the counter until the
last.  The limit holds in every run in which a download is counted, and a
transfer begins, only while the transfers that have begun and are not counted
leave room for it, and no request that counts as a download follows a slot that
was opened by one that does not.
-/

/-! ## Claims on the limit -/

/-- The slot is allowed, and a download was counted for it. -/
def Slot.consumed (slot : Slot) : Bool :=
  slot.countsAsDownload && slot.decision == .allowed

def Slot.consumedCount (slot : Slot) : Nat :=
  slot.consumed.toNat

def Transfer.countedCount (transfer : Transfer) : Nat :=
  transfer.counted.toNat

/-- Bytes of the transfer may be released, and it is not in the counter. -/
def Transfer.uncounted (transfer : Transfer) : Nat :=
  (transfer.begun && !transfer.counted).toNat

/-- The downloads counted, and the transfers that have begun without being counted. -/
def claimed (system : System) : Nat :=
  system.downloadCount + total Transfer.uncounted system.transfers

/-- The key of a request finds no slot, or one whose download is counted if the request counts as one. -/
def findsCounted (system : System) (handler : Handler) (key : AccessKey) : Bool :=
  (liveSlot system key).all fun found => !handler.countsAsDownload || found.2.countsAsDownload

/-- A download that is counted, or begun over the websocket, leaves room for
those begun before, and no request that counts as a download follows a slot
that does not. -/
def LeavesRoom (limit : Nat) (system : System) : Label -> Prop
  | .request handler session entryId generation =>
    findsCounted system handler (accessKey handler session entryId generation) = true
  | .decide index =>
    (system.slots[index]?.all fun slot =>
      !(slot.countsAsDownload && mayConsume (some limit) system.downloadCount) ||
        decide (claimed system < limit)) = true
  | .chunk index offset length =>
    (system.transfers[index]?.all fun transfer =>
      !transfer.offers offset length || transfer.begun || decide (claimed system < limit)) = true
  | _ => True

instance (limit : Nat) (system : System) : (label : Label) -> Decidable (LeavesRoom limit system label)
  | .request _ _ _ _ => inferInstanceAs (Decidable (_ = true))
  | .decide _ => inferInstanceAs (Decidable (_ = true))
  | .chunk _ _ _ => inferInstanceAs (Decidable (_ = true))
  | .elapse _ | .accountingFails _ | .forget _ | .receive _ | .giveUp _ | .send _ _ | .start _ | .increment _
  | .reply _ | .drop _ => inferInstanceAs (Decidable True)

/-! ## Transfers -/

/-- What the stage of a transfer says about what has happened to it. -/
structure Transfer.Coherent (transfer : Transfer) : Prop where
  sending : transfer.stage = .sending -> transfer.counted = false
  completing : forall bytes, transfer.stage = .completing bytes -> transfer.begun = true ∧ transfer.counted = false
  counted : forall bytes, transfer.stage = .counted bytes -> transfer.begun = true
  released : transfer.released = true -> transfer.begun = true

/-- What can happen to a transfer after a chunk, with the downloads it adds to the counter. -/
inductive TransferMove (transfer : Transfer) : Nat -> Transfer -> Prop
  | incremented (bytes : Nat) (stage : transfer.stage = .completing bytes) :
      TransferMove transfer 1 { transfer with stage := .counted bytes, counted := true }
  | replied (bytes : Nat) (stage : transfer.stage = .counted bytes) :
      TransferMove transfer 0 { transfer with stage := .ended, released := transfer.released || decide (0 < bytes) }
  | dropped : TransferMove transfer 0 transfer.drop

variable {length offset counts index limit : Nat} {transfer moved : Transfer} {slot : Slot} {system next : System}
  {control : Control} {slots : List Slot}

theorem sending_of_offers (offered : transfer.offers offset length) : transfer.stage = .sending := by
  simp only [Transfer.offers, Bool.and_eq_true, beq_iff_eq] at offered
  exact offered.1.1.1.1

theorem takeChunk_begun (transfer : Transfer) (offset length : Nat) :
    (transfer.takeChunk offset length).begun ∧
      (transfer.takeChunk offset length).counted = transfer.counted := by
  simp only [Transfer.takeChunk]
  split <;> exact ⟨rfl, rfl⟩

theorem coherent_takeChunk (coherent : transfer.Coherent) (offered : transfer.offers offset length) :
    (transfer.takeChunk offset length).Coherent := by
  rcases takeChunk_begun transfer offset length with ⟨begun, sameCounted⟩
  have notCounted : (transfer.takeChunk offset length).counted = false :=
    sameCounted.trans (coherent.sending (sending_of_offers offered))
  exact
    { sending := fun _ => notCounted
      completing := fun _ _ => ⟨begun, notCounted⟩
      counted := fun _ _ => begun
      released := fun _ => begun }

section

variable (move : TransferMove transfer counts moved) (coherent : transfer.Coherent)

include move coherent

theorem coherent_move : moved.Coherent := by
  cases move with
  | incremented bytes stage =>
    have begun : transfer.begun := (coherent.completing bytes stage).1
    exact ⟨by simp, by simp, fun _ _ => begun, coherent.released⟩
  | replied bytes stage =>
    have begun : transfer.begun := coherent.counted bytes stage
    exact ⟨by simp, by simp, by simp, fun _ => begun⟩
  | dropped => exact ⟨by simp [Transfer.drop], by simp [Transfer.drop], by simp [Transfer.drop], coherent.released⟩

/-- A transfer comes into the counter when it leaves the uncounted ones. -/
theorem counts_move :
    moved.countedCount = transfer.countedCount + counts ∧ moved.uncounted + counts = transfer.uncounted := by
  cases move with
  | incremented bytes stage =>
    rcases coherent.completing bytes stage with ⟨begun, notCounted⟩
    simp [Transfer.countedCount, Transfer.uncounted, begun, notCounted]
  | replied | dropped => exact ⟨rfl, rfl⟩

end

/-- The first chunk makes a transfer one of the uncounted ones. -/
theorem counts_takeChunk (transfer : Transfer) (offset length : Nat) :
    (transfer.takeChunk offset length).countedCount = transfer.countedCount ∧
      (transfer.takeChunk offset length).uncounted ≤ transfer.uncounted + (!transfer.begun).toNat := by
  rcases takeChunk_begun transfer offset length with ⟨begun, sameCounted⟩
  constructor
  · simp [Transfer.countedCount, sameCounted]
  · simp only [Transfer.uncounted, begun, sameCounted]
    cases transfer.begun <;> cases transfer.counted <;> decide

/-! ## Slots and requests -/

/-- Bytes are released only on the decision of a slot whose download is counted. -/
def Slot.Coherent (slot : Slot) : Prop :=
  slot.released = true -> slot.consumed = true

/-- A request that counts as a download has a slot that does. -/
def Control.Coherent (slots : List Slot) : Control -> Prop
  | .waiting handler index => handler.countsAsDownload = true ->
      Exists fun slot : Slot => slots[index]? = some slot ∧ slot.countsAsDownload = true
  | .admitted handler index => handler.countsAsDownload = true ->
      Exists fun slot : Slot => slots[index]? = some slot ∧ slot.consumed = true
  | .ended => True

theorem liveSlot_found {key : AccessKey} (live : liveSlot system key = some (index, slot)) :
    system.slots[index]? = some slot := by
  rcases bind_eq_some_iff.mp live with ⟨place, _, inWindow⟩
  split at inWindow
  · simp at inWindow
  rename_i other found
  rcases guarded inWindow with ⟨_, ⟨⟩⟩
  exact found

theorem not_consumed (other : slot.decision ≠ .allowed) : slot.consumed = false := by
  simp [consumed, other]

/-- No bytes are released on a decision that is still open. -/
theorem not_released (coherent : slot.Coherent) (other : slot.decision ≠ .allowed) : slot.released = false := by
  cases released : slot.released with
  | false => rfl
  | true => exact absurd (coherent released) (by simp [not_consumed other])

/-- The change of a slot that keeps what its followers rely on. -/
structure Slot.Keeps (slot moved : Slot) : Prop where
  counts : slot.countsAsDownload = true -> moved.countsAsDownload = true
  consumed : slot.consumed = true -> moved.consumed = true

theorem coherent_append (coherent : control.Coherent slots) (slot : Slot) : control.Coherent (slots ++ [slot]) := by
  have found : forall index old, slots[index]? = some old -> (slots ++ [slot])[index]? = some old :=
    fun index old inSlots => by
      rw [List.getElem?_append_left (List.getElem?_eq_some_iff.mp inSlots).1]
      exact inSlots
  cases control with
  | waiting handler index =>
    intro counts
    rcases coherent counts with ⟨old, inSlots, holds⟩
    exact ⟨old, found index old inSlots, holds⟩
  | admitted handler index =>
    intro counts
    rcases coherent counts with ⟨old, inSlots, holds⟩
    exact ⟨old, found index old inSlots, holds⟩
  | ended => trivial

theorem coherent_set {moved : Slot} (coherent : control.Coherent slots) (found : slots[index]? = some slot)
    (keeps : slot.Keeps moved) : control.Coherent (slots.set index moved) := by
  have bound : index < slots.length := (List.getElem?_eq_some_iff.mp found).1
  have moves : forall (property : Slot -> Bool), (property slot -> property moved) ->
      forall other : Nat, (Exists fun old => slots[other]? = some old ∧ property old) ->
        Exists fun new => (slots.set index moved)[other]? = some new ∧ property new := by
    rintro property kept other ⟨old, inSlots, holds⟩
    by_cases same : index = other
    · subst same
      have sameSlot : slot = old := some.inj (found.symm.trans inSlots)
      exact ⟨moved, List.getElem?_set_self bound, kept (sameSlot ▸ holds)⟩
    · exact ⟨old, (List.getElem?_set_ne same).trans inSlots, holds⟩
  cases control with
  | waiting handler other => exact fun counts => moves countsAsDownload keeps.counts other (coherent counts)
  | admitted handler other => exact fun counts => moves consumed keeps.consumed other (coherent counts)
  | ended => trivial

/-! ## Steps -/

/-- What a step can do. -/
inductive Move (limit : Nat) (system : System) (label : Label) : System -> Prop
  | elapsed (now : Nat) : Move limit system label { system with now := now }
  | followed (handler : Handler) (session : Str) (entryId : Nat) (generation : Str) (index : Nat) (slot : Slot)
      (isRequest : label = .request handler session entryId generation)
      (live : liveSlot system (accessKey handler session entryId generation) = some (index, slot)) :
      Move limit system label { system with requests := system.requests ++ [.waiting handler index] }
  | opened (handler : Handler) (key : AccessKey) (shareAccess : AList fun _ : AccessKey => Nat) :
      Move limit system label
        { system with
          slots := system.slots ++ [newSlot system.now handler key]
          shareAccess := shareAccess
          requests := system.requests ++ [.waiting handler system.slots.length] }
  | consumed (index : Nat) (slot : Slot) (isDecide : label = .decide index)
      (found : system.slots[index]? = some slot) (counts : slot.countsAsDownload = true)
      (deciding : slot.decision = .deciding) (may : mayConsume (some limit) system.downloadCount = true) :
      Move limit system label
        { system with
          downloadCount := system.downloadCount + 1
          slots := system.slots.set index { slot with decision := .allowed } }
  /-- A slot is settled, or forgotten, without a download being counted. -/
  | settled (index : Nat) (slot : Slot) (decision : Decision) (shareAccess : AList fun _ : AccessKey => Nat)
      (found : system.slots[index]? = some slot) (before : slot.decision ≠ .allowed)
      (free : slot.countsAsDownload = false ∨ decision ≠ .allowed) :
      Move limit system label
        { system with
          slots := system.slots.set index { slot with decision := decision }
          shareAccess := shareAccess }
  | admitted (request : Nat) (handler : Handler) (index : Nat) (slot : Slot)
      (waits : system.requests[request]? = some (.waiting handler index))
      (found : system.slots[index]? = some slot) (allowed : slot.decision = .allowed) :
      Move limit system label { system with requests := system.requests.set request (.admitted handler index) }
  | ended (request : Nat) : Move limit system label { system with requests := system.requests.set request .ended }
  | served (request : Nat) (handler : Handler) (index : Nat) (slot : Slot) (length : Nat)
      (admitted : system.requests[request]? = some (.admitted handler index))
      (found : system.slots[index]? = some slot) :
      Move limit system label
        { system with
          slots := system.slots.set index (slot.serve handler length)
          requests := system.requests.set request .ended }
  | started (size : Nat) : Move limit system label { system with transfers := system.transfers ++ [newTransfer size] }
  | took (index : Nat) (transfer : Transfer) (offset length : Nat) (isChunk : label = .chunk index offset length)
      (found : system.transfers[index]? = some transfer) (offered : transfer.offers offset length = true) :
      Move limit system label
        { system with transfers := system.transfers.set index (transfer.takeChunk offset length) }
  | transferred (index : Nat) (transfer moved : Transfer) (counts : Nat)
      (found : system.transfers[index]? = some transfer) (move : TransferMove transfer counts moved) :
      Move limit system label
        { system with
          downloadCount := system.downloadCount + counts
          transfers := system.transfers.set index moved }

theorem move_of_decide (taken : step (some limit) system (.decide index) = some next) :
    Move limit system (.decide index) next := by
  simp only [step] at taken
  split at taken
  · simp at taken
  rename_i slot found
  rcases guarded taken with ⟨deciding, rfl⟩
  have before : slot.decision ≠ .allowed := by simp [deciding]
  unfold decideSlot
  split
  · rename_i counts
    split
    · rename_i may
      exact .consumed index slot rfl found counts deciding may
    · exact .settled index slot .refused system.shareAccess found before (.inr (by decide))
  · rename_i free
    exact .settled index slot .allowed system.shareAccess found before (.inl (by simpa using free))

theorem move_of_request {handler : Handler} {session : Str} {entryId : Nat} {generation : Str}
    (taken : step (some limit) system (.request handler session entryId generation) = some next) :
    Move limit system (.request handler session entryId generation) next := by
  rcases guarded taken with ⟨_, rfl⟩
  unfold beginRequest
  split
  · rename_i index slot live
    exact .followed handler session entryId generation index slot rfl live
  · exact .opened handler _ _

theorem move_of_receive {request : Nat} (taken : step (some limit) system (.receive request) = some next) :
    Move limit system (.receive request) next := by
  simp only [step] at taken
  split at taken
  · rename_i handler index waits
    split at taken
    · simp at taken
    rename_i slot found
    rcases map_eq_some_iff.mp taken with ⟨control, decided, rfl⟩
    cases decision : slot.decision with
    | deciding => simp [received, decision] at decided
    | allowed =>
      simp only [received, decision, some.injEq] at decided
      subst decided
      exact .admitted request handler index slot waits found decision
    | refused | forgotten =>
      simp only [received, decision, some.injEq] at decided
      subst decided
      exact .ended request
  · simp at taken

theorem move_of_step {label : Label} (taken : step (some limit) system label = some next) :
    Move limit system label next := by
  cases label <;> simp only [step] at taken
  case elapse nanoseconds =>
    cases taken
    exact .elapsed _
  case request handler session entryId generation => exact move_of_request taken
  case decide index => exact move_of_decide taken
  case accountingFails index =>
    split at taken
    · simp at taken
    rename_i slot found
    rcases guarded taken with ⟨open_, rfl⟩
    exact .settled index slot .refused system.shareAccess found (by simp [open_.1]) (.inr (by decide))
  case forget index =>
    split at taken
    · simp at taken
    rename_i slot found
    rcases guarded taken with ⟨refused, rfl⟩
    exact .settled index slot .forgotten _ found (by simp [refused]) (.inr (by decide))
  case receive request => exact move_of_receive taken
  case giveUp request =>
    rcases guarded taken with ⟨_, rfl⟩
    exact .ended request
  case send request length =>
    split at taken
    · rename_i handler index admitted
      split at taken
      · simp at taken
      rename_i slot found
      cases taken
      exact .served request handler index slot length admitted found
    · simp at taken
  case start size =>
    cases taken
    exact .started size
  case chunk index offset length =>
    split at taken
    · simp at taken
    rename_i transfer found
    rcases guarded taken with ⟨offered, rfl⟩
    exact .took index transfer offset length rfl found offered
  case increment index =>
    split at taken
    · simp at taken
    rename_i transfer found
    split at taken
    · rename_i bytes stage
      cases taken
      exact .transferred index transfer _ 1 found (.incremented bytes stage)
    · simp at taken
  case reply index =>
    split at taken
    · simp at taken
    rename_i transfer found
    split at taken
    · rename_i bytes stage
      cases taken
      exact .transferred index transfer _ 0 found (.replied bytes stage)
    · simp at taken
  case drop index =>
    split at taken
    · simp at taken
    rename_i transfer found
    cases taken
    exact .transferred index transfer _ 0 found .dropped

/-! ## Runs -/

/-- Each download that may release bytes is in the counter or among the
transfers that claim a place in it, and together they are within the limit. -/
structure Accounted (limit : Nat) (system : System) : Prop where
  slots : forall slot, slot ∈ system.slots -> slot.Coherent
  requests : forall control, control ∈ system.requests -> control.Coherent system.slots
  transfers : forall transfer, transfer ∈ system.transfers -> transfer.Coherent
  counter : total consumedCount system.slots + total Transfer.countedCount system.transfers ≤
    system.downloadCount
  room : claimed system ≤ limit

/-- A slot is decided: nothing was released on it, and its followers keep what they rely on. -/
theorem accounted_decided (accounted : Accounted limit system) (found : system.slots[index]? = some slot)
    (before : slot.decision ≠ .allowed) (decision : Decision) :
    (forall other, other ∈ system.slots.set index { slot with decision := decision } -> other.Coherent) ∧
      (forall control, control ∈ system.requests ->
        control.Coherent (system.slots.set index { slot with decision := decision })) := by
  have closed : slot.released = false := not_released (accounted.slots slot (List.mem_of_getElem? found)) before
  constructor
  · apply forall_set accounted.slots
    intro released
    exact absurd (closed.symm.trans released) (by decide)
  · intro control inside
    apply coherent_set (accounted.requests control inside) found
    exact { counts := id, consumed := fun consumed => absurd consumed (by simp [not_consumed before]) }

theorem accounted_step (system : System) (label : Label) (next : System) (room : LeavesRoom limit system label)
    (taken : step (some limit) system label = some next) (accounted : Accounted limit system) :
    Accounted limit next := by
  have counter := accounted.counter
  have within := accounted.room
  unfold claimed at within
  cases move_of_step taken with
  | elapsed now => exact { accounted with }
  | followed handler session entryId generation index slot isRequest live =>
    subst isRequest
    have counted : handler.countsAsDownload -> slot.countsAsDownload := by
      intro counts
      simpa [LeavesRoom, findsCounted, live, counts] using room
    have waits : (Control.waiting handler index).Coherent system.slots :=
      fun counts => ⟨slot, liveSlot_found live, counted counts⟩
    exact { accounted with requests := forall_append accounted.requests waits }
  | opened handler key shareAccess =>
    have unused : (newSlot system.now handler key).consumedCount = 0 := by
      simp [consumedCount, not_consumed, newSlot]
    have waits : (Control.waiting handler system.slots.length).Coherent
        (system.slots ++ [newSlot system.now handler key]) :=
      fun counts => ⟨_, List.getElem?_concat_length, counts⟩
    exact
      { accounted with
        slots := forall_append accounted.slots fun released => absurd released (by simp [newSlot])
        requests := forall_append
          (fun control inside => coherent_append (accounted.requests control inside) _) waits
        counter := by simpa only [total_append, unused, Nat.add_zero] using counter }
  | consumed index slot isDecide found counts deciding may =>
    subst isDecide
    have before : slot.decision ≠ .allowed := by simp [deciding]
    have left : claimed system < limit := by simpa [LeavesRoom, found, counts, may] using room
    rcases accounted_decided accounted found before .allowed with ⟨slots, requests⟩
    have change := total_set consumedCount found { slot with decision := .allowed }
    have isOne : consumedCount { slot with decision := .allowed } = 1 := by simp [consumedCount, consumed, counts]
    exact
      { accounted with
        slots := slots
        requests := requests
        counter := by dsimp only; omega
        room := by unfold claimed at left ⊢; dsimp only; omega }
  | settled index slot decision shareAccess found before free =>
    rcases accounted_decided accounted found before decision with ⟨slots, requests⟩
    have change := total_set consumedCount found { slot with decision := decision }
    have isZero : consumedCount { slot with decision := decision } = 0 := by
      rcases free with notCounted | notAllowed
      · simp [consumedCount, consumed, notCounted]
      · simp [consumedCount, consumed, notAllowed]
    exact
      { accounted with
        slots := slots
        requests := requests
        counter := by dsimp only; omega }
  | admitted request handler index slot waits found allowed =>
    have admits : (Control.admitted handler index).Coherent system.slots := by
      intro counts
      rcases accounted.requests _ (List.mem_of_getElem? waits) counts with ⟨old, inSlots, counted⟩
      have same : old = slot := some.inj (inSlots.symm.trans found)
      subst same
      exact ⟨old, found, by simp [consumed, counted, allowed]⟩
    exact { accounted with requests := forall_set accounted.requests admits }
  | ended request => exact { accounted with requests := forall_set accounted.requests trivial }
  | served request handler index slot length admitted found =>
    have coherent : (slot.serve handler length).Coherent := by
      intro released
      rcases Bool.or_eq_true_iff.mp released with old | new
      · exact accounted.slots slot (List.mem_of_getElem? found) old
      · rcases accounted.requests _ (List.mem_of_getElem? admitted) (Bool.and_eq_true_iff.mp new).1 with
          ⟨other, inSlots, consumed⟩
        have same : other = slot := some.inj (inSlots.symm.trans found)
        subst same
        exact consumed
    have change := total_set consumedCount found (slot.serve handler length)
    have same : consumedCount (slot.serve handler length) = slot.consumedCount := rfl
    exact
      { accounted with
        slots := forall_set accounted.slots coherent
        requests := forall_set
          (fun control inside => coherent_set (accounted.requests control inside) found ⟨id, id⟩) trivial
        counter := by dsimp only; omega }
  | started size =>
    exact
      { accounted with
        transfers := forall_append accounted.transfers
          ⟨fun _ => rfl, by simp [newTransfer], by simp [newTransfer], by simp [newTransfer]⟩
        counter := by simpa [total_append, Transfer.countedCount, newTransfer] using counter
        room := by simpa [claimed, total_append, Transfer.uncounted, newTransfer] using within }
  | took index transfer offset length isChunk found offered =>
    subst isChunk
    have coherent := accounted.transfers transfer (List.mem_of_getElem? found)
    rcases counts_takeChunk transfer offset length with ⟨sameCounted, uncounted⟩
    have counted := total_set Transfer.countedCount found (transfer.takeChunk offset length)
    have change := total_set Transfer.uncounted found (transfer.takeChunk offset length)
    have left : claimed system + (!transfer.begun).toNat ≤ limit := by
      cases begun : transfer.begun with
      | true => exact within
      | false =>
        have less : claimed system < limit := by simpa [LeavesRoom, found, offered, begun] using room
        exact less
    exact
      { accounted with
        transfers := forall_set accounted.transfers (coherent_takeChunk coherent offered)
        counter := by dsimp only; omega
        room := by unfold claimed at left ⊢; dsimp only; omega }
  | transferred index transfer moved counts found move =>
    have coherent := accounted.transfers transfer (List.mem_of_getElem? found)
    rcases counts_move move coherent with ⟨countedMoves, uncountedMoves⟩
    have counted := total_set Transfer.countedCount found moved
    have change := total_set Transfer.uncounted found moved
    exact
      { accounted with
        transfers := forall_set accounted.transfers (coherent_move move coherent)
        counter := by dsimp only; omega
        room := by unfold claimed; dsimp only; omega }

theorem released_le_claims (coherent : transfer.Coherent) :
    transfer.releasedCount ≤ transfer.countedCount + transfer.uncounted := by
  unfold Transfer.releasedCount Transfer.countedCount Transfer.uncounted
  cases released : transfer.released with
  | false => exact Nat.zero_le _
  | true =>
    rw [coherent.released released]
    cases transfer.counted <;> decide

theorem released_le_consumed (coherent : slot.Coherent) : slot.releasedCount ≤ slot.consumedCount := by
  unfold releasedCount consumedCount
  cases released : slot.released with
  | false => exact Nat.zero_le _
  | true => exact Nat.le_of_eq (congrArg Bool.toNat (coherent released).symm)

theorem fresh_accounted (limit : Nat) : Accounted limit fresh :=
  { slots := by simp [fresh]
    requests := by simp [fresh]
    transfers := by simp [fresh]
    counter := Nat.le_refl 0
    room := Nat.zero_le limit }

/-- The limit on the downloads of a link. -/
theorem released_downloads_within_limit {limit : Nat} {final : System} {labels : List Label}
    (reached : run (step (some limit)) fresh labels = some final)
    (room : Along (step (some limit)) (LeavesRoom limit) fresh labels) : releasedDownloads final ≤ limit := by
  have accounted : Accounted limit final := run_induction accounted_step reached room (fresh_accounted limit)
  have slots : total releasedCount final.slots ≤ total consumedCount final.slots :=
    total_le_total fun slot inside => released_le_consumed (accounted.slots slot inside)
  have transfers : total Transfer.releasedCount final.transfers ≤
      total Transfer.countedCount final.transfers + total Transfer.uncounted final.transfers := by
    rw [← total_add]
    exact total_le_total fun transfer inside => released_le_claims (accounted.transfers transfer inside)
  have counter := accounted.counter
  have within := accounted.room
  unfold claimed at within
  unfold releasedDownloads
  omega

/-! ## A link for one download -/

def guest : Str := str "guest"

/-- A request of the guest for one file, admitted or refused, and its body. -/
def fetch (handler : Handler) (request : Nat) : List Label :=
  [.request handler guest 7 (str "1"), .receive request, .send request 10]

/-- A transfer of ten bytes in one chunk. -/
def transferAll (transfer : Nat) : List Label :=
  [.start 10, .chunk transfer 0 10, .increment transfer, .reply transfer]

/-- One file fetched twice within the window, and a poster of it. -/
def playedTwice : List Label :=
  [.request (.content true) guest 7 (str "1"), .decide 0, .receive 0, .send 0 10] ++ fetch (.content true) 1 ++
    [.request (.derived (str "poster-jpg")) guest 7 (str "1"), .decide 1, .receive 2, .send 2 5]

theorem released_downloads_within_limit_once :
    Exists fun final : System => run (step (some 1)) fresh playedTwice = some final ∧
      releasedDownloads final ≤ 1 ∧ releasedDownloads final = 1 := by
  have enabled : (run (step (some 1)) fresh playedTwice).map releasedDownloads = some 1 := by decide +kernel
  rcases map_eq_some_iff.mp enabled with ⟨final, reached, one⟩
  have room : Along (step (some 1)) (LeavesRoom 1) fresh playedTwice := by decide +kernel
  exact ⟨final, reached, released_downloads_within_limit reached room, one⟩

/-- Two websocket transfers; and, after a download, a transcoded artifact that follows the slot of a poster. -/
theorem websocket_and_poster_exceed :
    (run (step (some 1)) fresh (transferAll 0 ++ transferAll 1)).map releasedDownloads = some 2 ∧
      (run (step (some 1)) fresh
        (playedTwice ++ fetch (.derived (str "transcode-h264-480")) 3)).map releasedDownloads = some 2 := by
  decide +kernel

end DownloadLimit
end Share
end Vaulthalla
