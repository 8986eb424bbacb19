import Vaulthalla.S3Gateway.SigV4

namespace Vaulthalla
namespace S3Gateway
namespace RequestExpiry

open Foundation
open SigV4
open Outcome (bind_eq_ok require_eq_ok)

/-!
# The time window of accepted requests

A presigned request states how long it may be used, and a header-signed one is
good for fifteen minutes.  An expiry of zero seconds is read as no expiry, and
the day in the credential scope is never compared with the date of the request.
-/

/-! ## Days -/

def twoDigits (value : Nat) : Str := str (toString (value / 10 % 10)) ++ str (toString (value % 10))

/-- The Gregorian date of a moment as `YYYYMMDD`.  Years are counted from March, in
eras of 400 years. -/
def utcDay (seconds : Int) : Str :=
  let shifted := seconds / 86400 + 719468
  let dayOfEra := (shifted % 146097).toNat
  let yearOfEra := (dayOfEra - dayOfEra / 1460 + dayOfEra / 36524 - dayOfEra / 146096) / 365
  let dayOfYear := dayOfEra - (365 * yearOfEra + yearOfEra / 4 - yearOfEra / 100)
  let month := (5 * dayOfYear + 2) / 153
  let day := dayOfYear - (153 * month + 2) / 5 + 1
  let year := ((shifted / 146097) * 400).toNat + yearOfEra + (if month < 10 then 0 else 1)
  twoDigits (year / 100) ++ twoDigits year ++ twoDigits (if month < 10 then month + 3 else month - 9) ++ twoDigits day

example : utcDay 1709164800 = str "20240229" ∧ utcDay 1735689599 = str "20241231" := by decide +kernel

/-! ## The window -/

/-- The time at which a request with this signature and this date may be used. -/
structure InWindow (auth : ParsedAuth) (date now : Int) : Prop where
  headerSigned : auth.presigned = false -> (now - date).natAbs ≤ maxSkewSeconds
  presigned : auth.presigned = true ->
    date - maxSkewSeconds ≤ now ∧ now ≤ date + auth.expiresSeconds ∧ auth.expiresSeconds ≤ 604800
  day : auth.credential.date = utcDay date

section Accepted

variable {library : Library} {input : VerificationInput} {auth : ParsedAuth} {secret : Str} {now : Int}

theorem expiresSeconds_parsePresigned {rawQuery : Str} (parsed : parsePresigned rawQuery = Except.ok auth) :
    auth.expiresSeconds ≤ 604800 := by
  simp only [parsePresigned, bind_eq_ok, require_eq_ok, decide_eq_true_eq, Except.ok.injEq] at parsed
  rcases parsed with ⟨_, _, _, _, expires, _, _, isBounded, rfl⟩
  exact isBounded

theorem expiresSeconds_parseHeader (parsed : parseHeader library input = Except.ok auth) : auth.expiresSeconds = 0 := by
  simp only [parseHeader, bind_eq_ok] at parsed
  rcases parsed with ⟨_, _, _, _, parsed⟩
  split at parsed
  · simp only [bind_eq_ok, Except.ok.injEq] at parsed
    rcases parsed with ⟨_, _, rfl⟩
    rfl
  · cases parsed

theorem expiresSeconds_le (parsed : parseAuthorization library input = Except.ok auth) :
    auth.expiresSeconds ≤ 604800 := by
  unfold parseAuthorization at parsed
  split at parsed
  · rw [expiresSeconds_parseHeader parsed]
    exact Nat.zero_le _
  · exact expiresSeconds_parsePresigned parsed

theorem dateAcceptable_of_checkSignature (checked : checkSignature library input auth secret now = Except.ok ()) :
    dateAcceptable library auth now := by
  simp only [checkSignature, bind_eq_ok, require_eq_ok] at checked
  rcases checked with ⟨_, _, _, isAcceptable, _⟩
  exact isAcceptable

theorem window_of_dateAcceptable (acceptable : dateAcceptable library auth now) :
    Exists fun date => parseAmzDate library auth.amzDate = some date ∧
      (auth.presigned = false -> (now - date).natAbs ≤ maxSkewSeconds) ∧
      (auth.presigned -> date - maxSkewSeconds ≤ now ∧
        (auth.expiresSeconds = 0 ∨ now ≤ date + auth.expiresSeconds)) := by
  unfold dateAcceptable at acceptable
  split at acceptable
  · cases acceptable
  rename_i date isDate
  refine ⟨date, isDate, ?_, ?_⟩
  · intro isHeader
    simpa [isHeader] using acceptable
  · intro isPresigned
    split_ifs at acceptable with isEarly
    simp at acceptable
    omega

/-- An accepted request is in its window exactly when it does not state an expiry of
zero seconds, unless it is used by its own date, and its credential scope names the
day of that date. -/
theorem accepted_requests_expire (accepted : (verify library input secret now).ok = true) :
    Exists fun auth => Exists fun date =>
      parseAuthorization library input = Except.ok auth ∧ parseAmzDate library auth.amzDate = some date ∧
      (InWindow auth date now ↔
        (auth.presigned = true -> auth.expiresSeconds = 0 -> now ≤ date) ∧ auth.credential.date = utcDay date) := by
  rcases checkSignature_of_verify accepted with ⟨auth, isAuth, isChecked⟩
  rcases window_of_dateAcceptable (dateAcceptable_of_checkSignature isChecked) with
    ⟨date, isDate, whenHeader, whenPresigned⟩
  refine ⟨auth, date, isAuth, isDate, ?_, ?_⟩
  · intro window
    refine ⟨?_, window.day⟩
    intro isPresigned isZero
    have inTime := (window.presigned isPresigned).2.1
    omega
  · rintro ⟨zeroInTime, sameDay⟩
    refine ⟨whenHeader, ?_, sameDay⟩
    intro isPresigned
    rcases whenPresigned isPresigned with ⟨notEarly, isZero | inTime⟩
    · have byDate := zeroInTime isPresigned isZero
      exact ⟨notEarly, by omega, expiresSeconds_le isAuth⟩
    · exact ⟨notEarly, inTime, expiresSeconds_le isAuth⟩

end Accepted

/-! ## Two presigned requests -/

/-- A library whose dates are the first day of 2024, and whose digests are constant. -/
def sampleLibrary : Library where
  sha256Hex := fun _ => str "00"
  hmacSha256Raw := fun _ _ => str "k"
  hmacSha256HexFromRaw := fun _ _ => str "ab"
  getTime := fun value => if value = str "20240101T000000Z" then some 1704067200 else none

/-- A presigned download that states this expiry. -/
def presignedGet (expires : String) : VerificationInput where
  method := str "GET"
  target := str "/b/k?X-Amz-Algorithm=AWS4-HMAC-SHA256&X-Amz-Credential=AK%2F20240101%2Fr%2Fs3%2Faws4_request" ++
    str "&X-Amz-Date=20240101T000000Z&X-Amz-SignedHeaders=host&X-Amz-Signature=ab&X-Amz-Expires=" ++ str expires
  host := str "s3.example"
  headers := []
  body := []
  bodySha256 := none

def presignedAuth (expires : Nat) : ParsedAuth where
  credential := ⟨str "AK", str "20240101", str "r", str "s3"⟩
  signedHeaders := str "host"
  signature := str "ab"
  amzDate := str "20240101T000000Z"
  payloadHash := str "UNSIGNED-PAYLOAD"
  presigned := true
  expiresSeconds := expires

theorem hour_expires :
    Exists fun auth => Exists fun date =>
      parseAuthorization sampleLibrary (presignedGet "3600") = Except.ok auth ∧
      parseAmzDate sampleLibrary auth.amzDate = some date ∧
      (InWindow auth date 1704070800 ↔
        (auth.presigned = true -> auth.expiresSeconds = 0 -> (1704070800 : Int) ≤ date) ∧
          auth.credential.date = utcDay date) :=
  accepted_requests_expire (show (verify sampleLibrary (presignedGet "3600") [] 1704070800).ok = true by decide +kernel)

/-- A request that states an expiry of zero seconds is accepted ten years later. -/
theorem zero_expiry_is_accepted_for_ever :
    (verify sampleLibrary (presignedGet "0") [] 2019686400).ok = true ∧
      parseAuthorization sampleLibrary (presignedGet "0") = Except.ok (presignedAuth 0) ∧
      parseAmzDate sampleLibrary (presignedAuth 0).amzDate = some 1704067200 ∧
      ¬ InWindow (presignedAuth 0) 1704067200 2019686400 := by
  refine ⟨by decide +kernel, by decide +kernel, by decide +kernel, ?_⟩
  intro window
  exact absurd (window.presigned rfl).2.1 (by decide)

end RequestExpiry
end S3Gateway
end Vaulthalla
