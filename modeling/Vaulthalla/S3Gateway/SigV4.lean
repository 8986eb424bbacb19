import Vaulthalla.Foundation.Outcome
import Vaulthalla.S3Gateway.ConditionalPut
import Mathlib.Data.List.Sort

namespace Vaulthalla
namespace S3Gateway
namespace SigV4

open Foundation
open ConditionalPut (isSpace trimCopy)
open Outcome (require)

/-!
# Verification of signed requests

A request is signed in its `Authorization` header or in its query (a presigned
request).  `verify` parses the signature, checks its date, and compares it with
the one computed from the canonical form of the request.

The hash functions and the reading of a date by the C++ library are parameters.
Headers are a list in the order of the source's map, so that the last of two
names that differ in case only is the one that counts.
-/

/-! ## Text -/

def percent : UInt8 := 37
def ampersand : UInt8 := 38
def comma : UInt8 := 44
def colon : UInt8 := 58
def semicolon : UInt8 := 59
def equalSign : UInt8 := 61
def newline : UInt8 := 10

variable (byte : UInt8)

def toLower : UInt8 :=
  if 65 ≤ byte ∧ byte ≤ 90 then byte + 32 else byte

variable (value : Str)

def lower : Str := value.map toLower

/-- The loop of `trimAndCompress`, which knows whether the last character was a blank. -/
def compress (inSpace : Bool) : Str -> Str
  | [] => []
  | byte :: rest =>
    if isSpace byte then
      if inSpace then compress true rest else 32 :: compress true rest
    else byte :: compress false rest

def trimAndCompress : Str := compress false (trimCopy value)

def isDigit : Bool := 48 ≤ byte && byte ≤ 57

def isAlpha : Bool := (65 ≤ byte && byte ≤ 90) || (97 ≤ byte && byte ≤ 122)

def unreserved : Bool :=
  isDigit byte || isAlpha byte || byte == 45 || byte == 95 || byte == 46 || byte == 126

def hexDigit (value : UInt8) : UInt8 := if value < 10 then 48 + value else 55 + value

def pctEncode (slashSafe : Bool) (value : Str) : Str :=
  value.flatMap fun byte =>
    if unreserved byte || (slashSafe && byte == slash) then [byte]
    else [percent, hexDigit (byte / 16), hexDigit (byte % 16)]

def hexValue : Option UInt8 :=
  if isDigit byte then some (byte - 48)
  else if 65 ≤ byte && byte ≤ 70 then some (byte - 55)
  else if 97 ≤ byte && byte ≤ 102 then some (byte - 87)
  else none

/-- What `strtoul` reads in base 16 from two characters, when it stops at the end of
the C string.  That string ends at a zero, and may start with a blank or a sign. -/
def hexByte (first second : UInt8) : Option UInt8 :=
  if first = 0 then some 0
  else match hexValue first with
    | some high => if second = 0 then some high else (hexValue second).map fun low => high * 16 + low
    | none =>
      if isSpace first || first == 43 then hexValue second
      else if first == 45 then (hexValue second).map fun low => 0 - low
      else none

def pctDecode : Str -> Str
  | byte :: first :: second :: rest =>
    match if byte = percent then hexByte first second else none with
    | some decoded => decoded :: pctDecode rest
    | none => byte :: pctDecode (first :: second :: rest)
  | value => value

/-- What `std::getline` yields: a last empty piece is not delivered. -/
def split (delim : UInt8) : List Str :=
  let parts := value.splitOn delim
  if parts.getLast? = some [] then parts.dropLast else parts

/-- The text before the first `byte`, and the text after it. -/
def cut : Str × Str :=
  (value.takeWhile (· != byte), (value.dropWhile (· != byte)).tail)

/-! ## Parsing a request -/

/-- The functions of other libraries. -/
structure Library where
  sha256Hex : Str -> Str
  hmacSha256Raw : Str -> Str -> Str
  hmacSha256HexFromRaw : Str -> Str -> Str
  /-- `std::get_time` with the format `%Y%m%dT%H%M%SZ`, in seconds since the epoch. -/
  getTime : Str -> Option Int

structure CredentialScope where
  (accessKey date region service : Str)
deriving DecidableEq

structure VerificationInput where
  (method target host : Str)
  headers : List (Str × Str)
  body : Str
  bodySha256 : Option Str

structure ParsedAuth where
  credential : CredentialScope
  (signedHeaders signature amzDate payloadHash : Str)
  presigned : Bool
  expiresSeconds : Nat
deriving DecidableEq

structure VerificationResult where
  ok : Bool
  (accessKey error : Str)

def algorithm : Str := str "AWS4-HMAC-SHA256"

def pathPart (target : Str) : Str :=
  if (cut questionByte target).1.isEmpty then [slash] else (cut questionByte target).1

def queryPart (target : Str) : Str := (cut questionByte target).2

/-- One `key=value` of a query, decoded. -/
def queryItem (part : Str) : Str × Str :=
  (pctDecode (cut equalSign part).1, pctDecode (cut equalSign part).2)

def queryValue (rawQuery name : Str) : Str :=
  (((split rawQuery ampersand).map queryItem).lookup name).getD []

def decimal (digits : Str) : Nat :=
  digits.foldl (fun value digit => value * 10 + (digit.toNat - 48)) 0

def queryUInt64 (rawQuery name : Str) : Except Str Nat :=
  let raw := queryValue rawQuery name
  if raw.isEmpty then Except.error (str "Missing " ++ name)
  else if raw.all isDigit && decide (decimal raw < 2 ^ 64) then Except.ok (decimal raw)
  else Except.error (str "Invalid " ++ name)

section Parsing

variable (library : Library)

section

variable (input : VerificationInput)

def framedWithoutBody (headers : List (Str × Str)) : Bool :=
  (headers.lookup (str "content-length")).isNone && (headers.lookup (str "transfer-encoding")).isNone &&
    input.body.isEmpty && (input.bodySha256.isNone || input.bodySha256 == some (library.sha256Hex []))

/-- The map of lowered names, newest entry first. -/
def normalizedHeaders : List (Str × Str) :=
  let named := (input.headers.map fun header => (lower header.1, trimAndCompress header.2)).reverse
  let hosted :=
    if !input.host.isEmpty && (named.lookup (str "host")).isNone then (str "host", input.host) :: named else named
  if framedWithoutBody library input hosted then (str "content-length", str "0") :: hosted else hosted

def getHeader (name : Str) : Str :=
  ((normalizedHeaders library input).lookup (lower name)).getD []

end

def authParams (value : Str) : List (Str × Str) :=
  let value := if algorithm <+: value then value.drop algorithm.length else value
  (((split (value.dropWhile isSpace) comma).map trimAndCompress).filter
    (fun part => part.contains equalSign)).reverse.map (cut equalSign)

def parseCredentialScope (value : Str) : Except Str CredentialScope :=
  match split value slash with
  | [accessKey, date, region, service, terminator] =>
    if terminator ≠ str "aws4_request" then Except.error (str "Invalid credential scope")
    else if service ≠ str "s3" then Except.error (str "Unsupported SigV4 service")
    else Except.ok ⟨accessKey, date, region, service⟩
  | _ => Except.error (str "Invalid credential scope")

variable (input : VerificationInput)

def payloadSha256Hex : Str :=
  input.bodySha256.getD (library.sha256Hex input.body)

def parsePresigned (rawQuery : Str) : Except Str ParsedAuth := do
  require (queryValue rawQuery (str "X-Amz-Algorithm") == algorithm) (str "Unsupported presigned algorithm")
  let scope <- parseCredentialScope (queryValue rawQuery (str "X-Amz-Credential"))
  let expires <- queryUInt64 rawQuery (str "X-Amz-Expires")
  require (decide (expires ≤ 604800)) (str "X-Amz-Expires exceeds maximum allowed value")
  Except.ok {
    credential := scope
    signedHeaders := queryValue rawQuery (str "X-Amz-SignedHeaders")
    signature := queryValue rawQuery (str "X-Amz-Signature")
    amzDate := queryValue rawQuery (str "X-Amz-Date")
    payloadHash := str "UNSIGNED-PAYLOAD"
    presigned := true
    expiresSeconds := expires }

def parseHeader : Except Str ParsedAuth := do
  let auth := getHeader library input (str "authorization")
  require (!auth.isEmpty) (str "Missing Authorization header")
  require (decide (algorithm <+: auth)) (str "Unsupported authorization algorithm")
  let params := authParams auth
  match params.lookup (str "Credential"), params.lookup (str "SignedHeaders"), params.lookup (str "Signature") with
  | some credential, some signedHeaders, some signature =>
    let scope <- parseCredentialScope credential
    let payloadHash := getHeader library input (str "x-amz-content-sha256")
    Except.ok {
      credential := scope
      signedHeaders := signedHeaders
      signature := signature
      amzDate := getHeader library input (str "x-amz-date")
      payloadHash := if payloadHash.isEmpty then payloadSha256Hex library input else payloadHash
      presigned := false
      expiresSeconds := 0 }
  | _, _, _ => Except.error (str "Malformed Authorization header")

def parseAuthorization : Except Str ParsedAuth :=
  if (queryValue (queryPart input.target) (str "X-Amz-Algorithm")).isEmpty then parseHeader library input
  else parsePresigned (queryPart input.target)

/-! ## The canonical request -/

def canonicalUri (path : Str) : Str :=
  let encoded := pctEncode true (pctDecode (if path.isEmpty then [slash] else path))
  if encoded.head? = some slash then encoded else slash :: encoded

/-- The order of `std::pair<std::string, std::string>`. -/
def itemBefore (left right : Str × Str) : Prop :=
  left.1 < right.1 ∨ (left.1 = right.1 ∧ left.2 ≤ right.2)

instance : DecidableRel itemBefore := fun left right =>
  inferInstanceAs (Decidable (left.1 < right.1 ∨ (left.1 = right.1 ∧ left.2 ≤ right.2)))

/-- The items of a query that are signed. -/
def signedItems (rawQuery : Str) (omitSignature : Bool) : List (Str × Str) :=
  (((split rawQuery ampersand).filter (!·.isEmpty)).map queryItem).filter fun item =>
    !(omitSignature && item.1 == str "X-Amz-Signature")

def itemText (item : Str × Str) : Str := item.1 ++ equalSign :: item.2

def canonicalQueryString (rawQuery : Str) (omitSignature : Bool) : Str :=
  let items := (signedItems rawQuery omitSignature).map fun item => (pctEncode false item.1, pctEncode false item.2)
  [ampersand].intercalate ((items.insertionSort itemBefore).map itemText)

def canonicalHeaders (headers : List (Str × Str)) (signedHeaders : Str) : Str :=
  (split signedHeaders semicolon).flatMap fun name =>
    match headers.lookup (lower name) with
    | none => []
    | some value => lower name ++ colon :: trimAndCompress value ++ [newline]

variable (auth : ParsedAuth)

def makeCanonicalRequest : Str :=
  input.method ++ newline :: canonicalUri (pathPart input.target) ++
    newline :: canonicalQueryString (queryPart input.target) true ++
    newline :: canonicalHeaders (normalizedHeaders library input) auth.signedHeaders ++
    newline :: auth.signedHeaders ++ newline :: auth.payloadHash

variable (secret : Str)

def signingKey (scope : CredentialScope) : Str :=
  let kDate := library.hmacSha256Raw (str "AWS4" ++ secret) scope.date
  let kRegion := library.hmacSha256Raw kDate scope.region
  let kService := library.hmacSha256Raw kRegion scope.service
  library.hmacSha256Raw kService (str "aws4_request")

def signatureFor : Str :=
  let hashedCanonical := library.sha256Hex (makeCanonicalRequest library input auth)
  let scope := auth.credential.date ++ slash :: auth.credential.region ++ slash :: auth.credential.service ++
    str "/aws4_request"
  library.hmacSha256HexFromRaw (signingKey library secret auth.credential)
    (algorithm ++ newline :: auth.amzDate ++ newline :: scope ++ newline :: hashedCanonical)

/-! ## Verification -/

def parseAmzDate (value : Str) : Option Int :=
  if value.length < 16 then none else library.getTime value

def maxSkewSeconds : Int := 15 * 60

def dateAcceptable (now : Int) : Bool :=
  match parseAmzDate library auth.amzDate with
  | none => false
  | some parsed =>
    if auth.presigned then
      if parsed - now > maxSkewSeconds then false
      else !(decide (auth.expiresSeconds > 0) && decide (now > parsed + auth.expiresSeconds))
    else decide ((now - parsed).natAbs ≤ maxSkewSeconds)

/-- The first signed header that the request does not have. -/
def missingSignedHeader (signedHeaders : Str) : Option Str :=
  ((split signedHeaders semicolon).map fun name => lower (trimAndCompress name)).find? fun name =>
    !name.isEmpty && ((normalizedHeaders library input).lookup name).isNone

def payloadHashSkipsBodyVerification (payloadHash : Str) : Bool :=
  payloadHash == str "UNSIGNED-PAYLOAD" || payloadHash == str "STREAMING-UNSIGNED-PAYLOAD-TRAILER"

/-- The checks of `verify` on a parsed signature, in their order; the text is the error. -/
def checkSignature (now : Int) : Except Str Unit := do
  require (!auth.amzDate.isEmpty) (str "Missing x-amz-date")
  require (dateAcceptable library auth now) (str "Signature date is outside allowed skew")
  require (!auth.signedHeaders.isEmpty) (str "Missing signed headers")
  require (!auth.signature.isEmpty) (str "Missing signature")
  let missing := missingSignedHeader library input auth.signedHeaders
  require missing.isNone (str "Signed header missing from request: " ++ missing.getD [])
  require (payloadHashSkipsBodyVerification auth.payloadHash || auth.payloadHash == payloadSha256Hex library input)
    (str "Payload hash mismatch")
  require (lower auth.signature == lower (signatureFor library input auth secret)) (str "Signature mismatch")

def verify (now : Int) : VerificationResult :=
  match parseAuthorization library input with
  | Except.error error => ⟨false, [], error⟩
  | Except.ok auth =>
    match checkSignature library input auth secret now with
    | Except.error error => ⟨false, auth.credential.accessKey, error⟩
    | Except.ok () => ⟨true, auth.credential.accessKey, []⟩

end Parsing

section Accepted

variable {library : Library} {input : VerificationInput} {secret : Str} {now : Int}

theorem checkSignature_of_verify (accepted : (verify library input secret now).ok) :
    Exists fun auth => parseAuthorization library input = Except.ok auth ∧
      checkSignature library input auth secret now = Except.ok () := by
  unfold verify at accepted
  split at accepted
  · cases accepted
  rename_i auth isAuth
  split at accepted
  · cases accepted
  rename_i isChecked
  exact ⟨auth, isAuth, isChecked⟩

end Accepted

end SigV4
end S3Gateway
end Vaulthalla
