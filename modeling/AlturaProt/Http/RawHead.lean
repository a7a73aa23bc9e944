import AlturaProt.Filter.Rule
import AlturaProt.Foundation.Items
import AlturaProt.Foundation.Search

/-!
# The checks on a raw request head

Before a connection is handed to the HTTP library, `src/http_proxy.rs` reads the
head of the first request as bytes and checks it: the length and the number of
its header lines, what frames the body, and the size of the request target.

The header lines are what stands between the request line and the first empty
line; the loops over them differ only in what they do with a line.
-/

namespace AlturaProt.Http

open Foundation Filter

/-! ## Lines -/

/-- `strip_suffix(b"\r").unwrap_or(line)`. -/
def stripCr (line : Str) : Str := if line.getLast? = some 0x0D then line.dropLast else line

def requestLine (block : Str) : Str := (block.splitOn 0x0A).headD []

/-- The lines after the request line, up to the first empty one. -/
def headerLines (block : Str) : List Str :=
  ((block.splitOn 0x0A).tail.map stripCr).takeWhile (!·.isEmpty)

/-- Space or tab. -/
def isBlankByte (b : UInt8) : Bool := b == 0x20 || b == 0x09

def trimHeaderValue (value : Str) : Str := trimBy isBlankByte value

/-! ## Body framing -/

def MAX_EMPTY_TRANSFER_ENCODING_ELEMENTS : ℕ := 8

/-- One element of the list: whether a coding was seen before, and the number of
empty elements so far. -/
def checkCoding (seen : Bool × ℕ) (coding : Str) : Except String (Bool × ℕ) :=
  if coding.isEmpty then
    if MAX_EMPTY_TRANSFER_ENCODING_ELEMENTS < seen.2 + 1 then
      .error "too many empty transfer-encoding elements"
    else .ok (seen.1, seen.2 + 1)
  else if seen.1 || !eqIgnoreAsciiCase coding (utf8 "chunked") then
    .error "unsupported transfer-encoding"
  else .ok (true, seen.2)

def validateTransferEncodingValue (value : Str) (allowChunkedRequestBodies : Bool) :
    Except String Unit := do
  let seen ← ((value.splitOn 0x2C).map trimHeaderValue).foldlM checkCoding (false, 0)
  rejectIf (!seen.1) "invalid transfer-encoding header"
  rejectIf (!allowChunkedRequestBodies) "chunked request body not allowed"

def validateRawTransferEncoding (value : Str) (allowChunkedRequestBodies : Bool) :
    Except String Unit :=
  validateTransferEncodingValue value allowChunkedRequestBodies

def validateRawContentLength (value : Str) : Except String Unit :=
  rejectIf (value.isEmpty || decide (0x2C ∈ value) || !value.all isAsciiDigit)
    "invalid content-length header"

/-- What the loop over the header lines has seen of the body framing. -/
structure RawFraming where
  contentLengthCount : ℕ
  transferEncodingCount : ℕ
  transferEncodingValue : Option Str
deriving DecidableEq

def checkRawHeaderLine (framing : RawFraming) (line : Str) : Except String RawFraming :=
  if line.head? = some 0x20 ∨ line.head? = some 0x09 then .error "obsolete folded header line"
  else
    match line.idxOf? 0x3A with
    | none => .error "invalid header line"
    | some colon =>
      let name := line.take colon
      let value := trimHeaderValue (line.drop (colon + 1))
      if headerNameFromBytes name = none then .error "invalid header name"
      else if eqIgnoreAsciiCase name (utf8 "content-length") then do
        validateRawContentLength value
        return { framing with contentLengthCount := framing.contentLengthCount + 1 }
      else if eqIgnoreAsciiCase name (utf8 "transfer-encoding") then
        .ok { framing with
          transferEncodingCount := framing.transferEncodingCount + 1
          transferEncodingValue := some value }
      else .ok framing

def validateRawFraming (framing : RawFraming) (allowChunkedRequestBodies : Bool) :
    Except String Unit :=
  if 1 < framing.contentLengthCount then .error "multiple content-length headers"
  else if framing.transferEncodingCount = 0 then .ok ()
  else if 0 < framing.contentLengthCount then
    .error "ambiguous transfer-encoding and content-length"
  else if 1 < framing.transferEncodingCount then .error "multiple transfer-encoding headers"
  else validateRawTransferEncoding (framing.transferEncodingValue.getD [])
    allowChunkedRequestBodies

/-- The block always has a first line, so that only a blank one is missing. -/
def validateRawHttp1HeaderBlock (block : Str) (allowChunkedRequestBodies : Bool) :
    Except String Unit := do
  rejectIf ((requestLine block).all isAsciiWhitespace) "missing request line"
  let framing ← (headerLines block).foldlM checkRawHeaderLine ⟨0, 0, none⟩
  validateRawFraming framing allowChunkedRequestBodies

/-! ## Sizes -/

/-- A limit of zero is none. -/
def exceeds (limit size : ℕ) : Bool := decide (0 < limit ∧ limit < size)

def rawHttp1HeaderLineExceeds (block : Str) (maxHeaderLineBytes : ℕ) : Bool :=
  (headerLines block).any fun line => exceeds maxHeaderLineBytes line.length

def rawHttp1HeaderCount (block : Str) : ℕ := (headerLines block).length

def rawHttp1HeaderCountExceeds (block : Str) (maxHeaders : ℕ) : Bool :=
  exceeds maxHeaders (rawHttp1HeaderCount block)

/-! ## The request target -/

structure RawRequestTargetLimits where
  maxUriBytes : ℕ
  maxQueryBytes : ℕ
  maxQueryPairs : ℕ
  maxPathSegments : ℕ

/-- The target of a request line of three words. -/
def rawHttp1RequestTarget (block : Str) : Option Str :=
  match (stripCr (requestLine block)).splitOn 0x20 with
  | [method, target, version] =>
    if method.isEmpty || target.isEmpty || version.isEmpty then none else some target
  | _ => none

/-- The rest of a text from the first byte that satisfies `p`. -/
def fromFirst (p : UInt8 → Bool) (text : Str) : Str := text.dropWhile (!p ·)

def rawTargetPathAndQuery (target : Str) : Str :=
  if target.head? = some 0x2F || target.head? = some 0x3F || target == utf8 "*" then target
  else
    match position (utf8 "://") target with
    | some schemeEnd => fromFirst (fun b => b == 0x2F || b == 0x3F) (target.drop (schemeEnd + 3))
    | none => []

def rawTargetQuery (pathAndQuery : Str) : Option Str :=
  (pathAndQuery.idxOf? 0x3F).map fun idx => pathAndQuery.drop (idx + 1)

def rawTargetPathSegmentCount (pathAndQuery : Str) (maxSegments : ℕ) : ℕ :=
  let path := (pathAndQuery.splitOn 0x3F).headD pathAndQuery
  (((path.splitOn 0x2F).filter fun segment => !segment.isEmpty && segment != utf8 "*").take
    (maxSegments + 1)).length

def validateRawRequestTarget (block : Str) (limits : RawRequestTargetLimits) :
    Except String Unit :=
  match rawHttp1RequestTarget block with
  | none => .ok ()
  | some target => do
      rejectIf (exceeds limits.maxUriBytes target.length) "request uri too long"
      let pathAndQuery := rawTargetPathAndQuery target
      checkSome (fun query => do
        rejectIf (exceeds limits.maxQueryBytes query.length) "request query too long"
        rejectIf (exceeds limits.maxQueryPairs
          ((query.splitOn 0x26).take (limits.maxQueryPairs + 1)).length)
          "too many query parameters") (rawTargetQuery pathAndQuery)
      rejectIf (exceeds limits.maxPathSegments
        (rawTargetPathSegmentCount pathAndQuery limits.maxPathSegments)) "too many path segments"

end AlturaProt.Http
