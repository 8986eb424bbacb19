import Vaulthalla.S3Gateway.SigV4

namespace Vaulthalla
namespace S3Gateway
namespace SignedTarget

open Foundation SigV4

/-!
# The object of a signed request

The signature of a request covers the canonical form of its path.  The router
decodes the path on its own and cuts it into a bucket and a key, unless the host
name of the request starts with the bucket.
-/

structure Config where
  (allowVirtualHostedStyle allowPathStyle : Bool)
  host : Str

/-- What the router reads: headers that are absent are `none`. -/
structure Request where
  target : Str
  host : Option Str
  /-- `X-Vaulthalla-S3-Path-Style-Only` -/
  pathStyleOnly : Option Str

/-- Without the port, in lower case. -/
def hostName (host : Str) : Str := lower (cut colon host).1

def looksLikeIpAddressOrLocalhost (host : Str) : Bool :=
  host == str "localhost" || host.all fun byte => isDigit byte || byte == 46 || byte == colon

/-- The bucket that a host name starts with. -/
def hostBucket (config : Config) (host : Str) : Option Str :=
  if host.isEmpty || host == hostName config.host || looksLikeIpAddressOrLocalhost host then none
  else if host.contains 46 && host.head? != some 46 then some (cut 46 host).1
  else none

def virtualHostedBucket (config : Config) (request : Request) : Option Str :=
  if config.allowVirtualHostedStyle then (request.host.map hostName).bind (hostBucket config) else none

def pathStyleOnlyProxy (request : Request) : Bool :=
  request.pathStyleOnly.any fun value =>
    value.isEmpty || [str "1", str "true", str "yes", str "on"].contains (lower value)

def targetPath (target : Str) : Str := (cut questionByte target).1

structure ParsedTarget where
  (bucket key : Str)

/-- Without the query.  The error carries the path as it was sent. -/
def parseRequestTarget (config : Config) (request : Request) : Except (Str × Str) ParsedTarget :=
  let decoded := (pctDecode (targetPath request.target)).dropWhile (· == slash)
  match if pathStyleOnlyProxy request then none else virtualHostedBucket config request with
  | some bucket => .ok { bucket := bucket, key := decoded }
  | none =>
    if config.allowPathStyle then .ok { bucket := (cut slash decoded).1, key := (cut slash decoded).2 }
    else .error (str "Path-style bucket addressing is disabled", targetPath request.target)

/-! ## Percent encoding -/

theorem hexByte_hexDigit (byte : UInt8) : hexByte (hexDigit (byte / 16)) (hexDigit (byte % 16)) = some byte := by
  have all : forall index : Fin 256, hexByte (hexDigit (UInt8.ofFin index / 16)) (hexDigit (UInt8.ofFin index % 16)) =
      some (UInt8.ofFin index) := by decide +kernel
  exact all byte.toFin

theorem pctDecode_cons {byte : UInt8} (plain : byte ≠ percent) (rest : Str) :
    pctDecode (byte :: rest) = byte :: pctDecode rest := by
  match rest with
  | [] => rfl
  | [_] => rfl
  | _ :: _ :: _ => simp only [pctDecode, if_neg plain]

theorem pctDecode_pctEncode (slashSafe : Bool) (value : Str) : pctDecode (pctEncode slashSafe value) = value := by
  induction value with
  | nil => rfl
  | cons byte rest ih =>
    rw [pctEncode, List.flatMap_cons]
    split
    · rename_i kept
      have plain : byte ≠ percent := by
        rintro rfl
        cases slashSafe <;> exact absurd kept (by decide)
      rw [List.singleton_append, pctDecode_cons plain]
      exact congrArg (byte :: ·) ih
    · simp only [List.cons_append, List.nil_append, pctDecode, if_true, hexByte_hexDigit]
      exact congrArg (byte :: ·) ih

/-- The canonical path stands for the path that the router decodes, up to leading separators. -/
theorem dropWhile_canonicalUri (target : Str) :
    (pctDecode (canonicalUri (pathPart target))).dropWhile (· == slash) =
      (pctDecode (targetPath target)).dropWhile (· == slash) := by
  unfold pathPart targetPath
  cases (cut questionByte target).1 with
  | nil => rfl
  | cons byte rest =>
    simp only [List.isEmpty_cons, Bool.false_eq_true, if_false, canonicalUri]
    split
    · rw [pctDecode_pctEncode]
    · rw [pctDecode_cons (by decide), pctDecode_pctEncode, List.dropWhile_cons_of_pos (by simp)]

/-- The router looks for a bucket in neither host name, or reads both headers alike. -/
def AlikeAddressed (config : Config) (first second : Request) : Prop :=
  (config.allowVirtualHostedStyle = false ∨ (pathStyleOnlyProxy first ∧ pathStyleOnlyProxy second)) ∨
    (first.host.map hostName = second.host.map hostName ∧ pathStyleOnlyProxy first = pathStyleOnlyProxy second)

theorem AlikeAddressed.bucket {config : Config} {first second : Request} (alike : AlikeAddressed config first second) :
    (if pathStyleOnlyProxy first then none else virtualHostedBucket config first) =
      if pathStyleOnlyProxy second then none else virtualHostedBucket config second := by
  rcases alike with (isOff | ⟨isFirst, isSecond⟩) | ⟨sameHost, sameStyle⟩
  · simp [virtualHostedBucket, isOff]
  · rw [if_pos isFirst, if_pos isSecond]
  · rw [virtualHostedBucket, virtualHostedBucket, sameHost, sameStyle]

/-- Requests with the same canonical path go to the same bucket and key: in path style whatever hosts they name, and
where the host may name the bucket if these are the same but for letter case and port. -/
theorem signed_path_determines_object {config : Config} {first second : Request}
    (same : canonicalUri (pathPart first.target) = canonicalUri (pathPart second.target))
    (alike : AlikeAddressed config first second) (parsed : ParsedTarget) :
    parseRequestTarget config first = .ok parsed ↔ parseRequestTarget config second = .ok parsed := by
  have decoded : (pctDecode (targetPath first.target)).dropWhile (· == slash) =
      (pctDecode (targetPath second.target)).dropWhile (· == slash) := by
    rw [← dropWhile_canonicalUri, same, dropWhile_canonicalUri]
  unfold parseRequestTarget
  rw [decoded, alike.bucket]
  split
  · rfl
  · cases config.allowPathStyle <;> simp

def sampleConfig : Config := ⟨true, true, str "s3.test"⟩

theorem signed_path_determines_object_encoded :
    parseRequestTarget sampleConfig ⟨str "/a%2Fb?acl", some (str "Photos.s3.test:9000"), none⟩ =
      .ok { bucket := str "photos", key := str "a/b" } :=
  (signed_path_determines_object (by decide +kernel) (.inr ⟨by decide +kernel, rfl⟩) _).mpr
    (by rfl : parseRequestTarget sampleConfig ⟨str "/a/b", some (str "photos.s3.test"), none⟩ = _)

end SignedTarget
end S3Gateway
end Vaulthalla
