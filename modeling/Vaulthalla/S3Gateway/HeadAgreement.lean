import Vaulthalla.Foundation.ByteString
import Vaulthalla.Foundation.Transition

namespace Vaulthalla
namespace S3Gateway
namespace HeadAgreement

open Foundation Transition

/-!
# HEAD and GET of one object

`putObject` writes the file and then the object row of the gateway, in two
steps; web uploads and FUSE write the file alone.  The backfill adds a row where
there is none: from the file, or in a remote-backed bucket from the index of the
upstream objects.  `headObject` answers from the row if there is one, then from
the metadata of the file, and in a remote-backed bucket from the index;
`getObject` reads the file, or the upstream object where there is no file, which
a cached bucket then keeps as a file.
-/

/-- A file, or an upstream object. -/
structure Content where
  body : Str
  /-- The ETags by which these bytes are known apart from their MD5. -/
  etags : List Str
deriving DecidableEq

/-- The metadata ETags of a file: that of `metadataEtagForFile` and that of the backfill, which print the time of the
last change in different ways. -/
structure Metadata where
  etag : Str
  backfillEtag : Str
deriving DecidableEq

structure File where
  body : Str
  metadata : Metadata
  /-- The ETags of the upstream object that a GET has kept as this file. -/
  upstreamEtags : List Str
deriving DecidableEq

def File.content (file : File) : Content :=
  ⟨file.body, file.metadata.etag :: file.metadata.backfillEtag :: file.upstreamEtags⟩

structure ObjectState where
  etag : Str
  sizeBytes : Nat
deriving DecidableEq

/-- `stateFromLocalFile` -/
def File.localState (file : File) : ObjectState := ⟨file.metadata.etag, file.body.length⟩

/-- The row of `backfillObjectStateFromFs`. -/
def File.backfillState (file : File) : ObjectState := ⟨file.metadata.backfillEtag, file.body.length⟩

/-- What there is upstream of a remote-backed bucket. -/
structure Remote where
  /-- The row of `remote_object_index`. -/
  index : Option ObjectState
  /-- The object that a download gives, with its upstream ETag. -/
  object : Option Content
deriving DecidableEq

structure State where
  file : Option File
  row : Option ObjectState
  /-- The bodies of the puts that have written the file and not yet the row. -/
  writing : List Str
  /-- Present in a remote-backed bucket. -/
  remote : Option Remote
deriving DecidableEq

inductive Label
  /-- A put writes the file. -/
  | createFile (body : Str) (metadata : Metadata)
  | upsertObject (put : Nat)
  /-- A put fails after it has written the file. -/
  | fail (put : Nat)
  /-- A writer that is not the gateway. -/
  | overwrite (body : Str) (metadata : Metadata)
  /-- A listing, or a HEAD in a remote-backed bucket. -/
  | backfill
  /-- A GET keeps the upstream object as a file. -/
  | materialize (metadata : Metadata)
  /-- The upstream object or its index changes. -/
  | upstream (remote : Remote)
deriving DecidableEq

section System

variable (md5 : Str -> Str)

/-- The row that a put writes. -/
def putState (body : Str) : ObjectState := ⟨md5 body, body.length⟩

variable (state : State)

def headObject : Option ObjectState :=
  (state.row.or (state.file.map File.localState)).or (state.remote.bind Remote.index)

/-- The content that GET returns, after it has asked for the head. -/
def getObject : Option Content :=
  (headObject state).bind fun _ => (state.file.map File.content).or (state.remote.bind Remote.object)

/-- The row that a backfill inserts where there is none. -/
def backfilled : Option ObjectState :=
  match state.remote with
  | none => state.file.map File.backfillState
  | some remote => remote.index

def step : Label -> Option State
  | .createFile body metadata =>
    some { state with file := some ⟨body, metadata, []⟩, writing := body :: state.writing }
  | .upsertObject put =>
    state.writing[put]?.map fun body =>
      { state with row := some (putState md5 body), writing := state.writing.eraseIdx put }
  | .fail put => if put < state.writing.length then some { state with writing := state.writing.eraseIdx put } else none
  | .overwrite body metadata => some { state with file := some ⟨body, metadata, []⟩ }
  | .backfill => some { state with row := state.row.or (backfilled state) }
  | .materialize metadata =>
    if state.file = none ∧ headObject state ≠ none then
      (state.remote.bind Remote.object).map fun object =>
        { state with file := some ⟨object.body, metadata, object.etags⟩ }
    else none
  | .upstream remote => state.remote.map fun _ => { state with remote := some remote }

/-- The size is that of the body, and the ETag its MD5 or one by which the content is known. -/
def Describes (reported : ObjectState) (content : Content) : Prop :=
  reported.sizeBytes = content.body.length ∧ (reported.etag = md5 content.body ∨ reported.etag ∈ content.etags)

/-- HEAD reports what GET returns, and reports nothing when there is nothing. -/
def Agrees : Prop :=
  Option.Rel (Describes md5) (headObject state) (getObject state)

/-- Only the gateway writes a file that has an object row, one put at a time, and none fails between its steps; no row
is made from the index of the upstream objects for a file, and what is upstream changes only behind a file. -/
def Orderly : Label -> Prop
  | .createFile _ _ => state.writing = []
  | .overwrite _ _ => state.writing = [] ∧ state.row = none
  | .fail _ => state.row = none
  | .backfill => state.row ≠ none ∨ state.file = none ∨ state.remote.bind Remote.index = none
  | .upstream _ => state.file ≠ none
  | .upsertObject _ | .materialize _ => True

instance (state : State) (label : Label) : Decidable (Orderly state label) := by
  unfold Orderly
  split <;> infer_instance

end System

/-! ## Orderly runs -/

variable {md5 : Str -> Str} {state next : State}

theorem headObject_of_file {file : File} (isFile : state.file = some file) :
    headObject state = some (state.row.getD file.localState) := by
  cases isRow : state.row <;> simp [headObject, isFile, isRow]

theorem agrees_of_file {file : File} (isFile : state.file = some file)
    (describes : Describes md5 (state.row.getD file.localState) file.content) : Agrees md5 state := by
  have got : getObject state = some file.content := by
    simp [getObject, headObject_of_file isFile, isFile]
  unfold Agrees
  rw [headObject_of_file isFile, got]
  exact .some describes

theorem localState_describes (file : File) : Describes md5 file.localState file.content :=
  ⟨rfl, .inr List.mem_cons_self⟩

theorem backfillState_describes (file : File) : Describes md5 file.backfillState file.content :=
  ⟨rfl, .inr (List.mem_cons_of_mem _ List.mem_cons_self)⟩

theorem agrees_of_no_row {file : File} (isFile : state.file = some file) (isNone : state.row = none) :
    Agrees md5 state := by
  refine agrees_of_file isFile ?_
  rw [isNone]
  exact localState_describes file

/-- The put that is in flight, if there is one, wrote the file last. -/
structure Sound (md5 : Str -> Str) (state : State) : Prop where
  single : state.writing.length ≤ 1
  written : forall body, body ∈ state.writing -> Exists fun file => state.file = some file ∧ file.body = body
  agrees : state.writing = [] -> Agrees md5 state

theorem sound_of_quiet (isQuiet : state.writing = []) (agrees : Agrees md5 state) : Sound md5 state :=
  ⟨by simp [isQuiet], by simp [isQuiet], fun _ => agrees⟩

/-- A backfill either changes nothing that HEAD reports, or describes the file anew. -/
theorem agrees_backfill (orderly : Orderly state .backfill) (agrees : Agrees md5 state) :
    Agrees md5 { state with row := state.row.or (backfilled state) } := by
  rcases state with ⟨file, row, writing, remote⟩
  cases row with
  | some row => exact agrees
  | none =>
    cases remote with
    | none =>
      cases file with
      | none => exact agrees
      | some file => exact agrees_of_file rfl (backfillState_describes file)
    | some remote =>
      rcases remote with ⟨index, object⟩
      cases index with
      | none => exact agrees
      | some index =>
        cases file with
        | none => exact agrees
        | some file => simp [Orderly] at orderly

/-- The file that a GET keeps has the ETags of the upstream object too. -/
theorem agrees_materialize {metadata : Metadata} {object : Content} (isNone : state.file = none)
    (isObject : state.remote.bind Remote.object = some object) (agrees : Agrees md5 state) :
    Agrees md5 { state with file := some ⟨object.body, metadata, object.etags⟩ } := by
  refine agrees_of_file rfl ?_
  cases isRow : state.row with
  | none => exact localState_describes _
  | some row =>
    have described : Option.Rel (Describes md5) (some row) (some object) := by
      simpa [Agrees, headObject, getObject, isNone, isRow, isObject] using agrees
    cases described with
    | some describes =>
      refine ⟨describes.1, describes.2.imp_right fun known => ?_⟩
      exact List.mem_cons_of_mem _ (List.mem_cons_of_mem _ known)

theorem Sound.step {label : Label} (orderly : Orderly state label) (taken : step md5 state label = some next)
    (sound : Sound md5 state) : Sound md5 next := by
  have erased put (isPut : put < state.writing.length) : state.writing.eraseIdx put = [] := by
    have isSingle := sound.single
    exact List.length_eq_zero_iff.mp (by rw [List.length_eraseIdx_of_lt isPut]; omega)
  cases label with
  | createFile body metadata =>
    cases taken
    have isQuiet : state.writing = [] := orderly
    refine ⟨by simp [isQuiet], ?_, nofun⟩
    simp [isQuiet]
  | upsertObject put =>
    rcases Option.map_eq_some_iff.mp taken with ⟨body, isPut, rfl⟩
    rcases sound.written body (List.mem_of_getElem? isPut) with ⟨file, isFile, rfl⟩
    refine sound_of_quiet (erased put (List.getElem?_eq_some_iff.mp isPut).1) (agrees_of_file isFile ?_)
    exact ⟨rfl, .inl rfl⟩
  | fail put =>
    rcases guarded taken with ⟨isPut, rfl⟩
    rcases sound.written _ (List.getElem_mem isPut) with ⟨file, isFile, _⟩
    exact sound_of_quiet (erased put isPut) (agrees_of_no_row isFile orderly)
  | overwrite body metadata =>
    cases taken
    exact sound_of_quiet orderly.1 (agrees_of_no_row rfl orderly.2)
  | backfill =>
    cases taken
    exact ⟨sound.single, sound.written, fun isQuiet => agrees_backfill orderly (sound.agrees isQuiet)⟩
  | materialize metadata =>
    rcases Option.ite_none_right_eq_some.mp taken with ⟨⟨isNone, _⟩, moved⟩
    rcases Option.map_eq_some_iff.mp moved with ⟨object, isObject, rfl⟩
    have isQuiet : state.writing = [] := by
      refine List.eq_nil_iff_forall_not_mem.mpr fun body inside => ?_
      rcases sound.written body inside with ⟨file, isFile, _⟩
      cases isNone.symm.trans isFile
    exact sound_of_quiet isQuiet (agrees_materialize isNone isObject (sound.agrees isQuiet))
  | upstream remote =>
    rcases Option.map_eq_some_iff.mp taken with ⟨_, _, rfl⟩
    rcases Option.ne_none_iff_exists'.mp orderly with ⟨file, isFile⟩
    refine ⟨sound.single, sound.written, fun isQuiet => ?_⟩
    have described : Option.Rel (Describes md5) (some (state.row.getD file.localState)) (some file.content) := by
      simpa [Agrees, headObject_of_file isFile, getObject, isFile] using sound.agrees isQuiet
    cases described with
    | some describes => exact agrees_of_file isFile describes

def unwritten : State := { file := none, row := none, writing := [], remote := none }

/-- The index and the object of a bucket upstream. -/
def sampleRemote : Remote := ⟨some ⟨str "e", 3⟩, some ⟨str "ccc", [str "e"]⟩⟩

/-- A remote-backed bucket before any request. -/
def remoteOnly : State := { unwritten with remote := some sampleRemote }

/-- A GET keeps an upstream object as a file; it is put, while what is upstream changes, and listed. -/
def keptThenPut : List Label :=
  [.backfill, .materialize ⟨str "1", str "2"⟩, .createFile (str "a") ⟨str "3", str "4"⟩, .upstream ⟨none, none⟩,
    .upsertObject 0, .backfill]

end HeadAgreement
end S3Gateway
end Vaulthalla
