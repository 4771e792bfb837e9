import PublicEndorsement.EndorsementResponse
import PublicEndorsement.StoredTokens

/-!
# Requests for timestamp tokens

The way from `SignatureGeneratorImpl` to a timestamping authority: the configuration in its
bucket, read by `S3TsaConfigProvider` and kept for five minutes, the choice of an address by
`RandomTsaUrlSelector`, and the exchange with the authority by `SimpleTsaClient`. The answers of
S3, of the HTTP client and of Bouncy Castle are parameters of each request. What is logged as a
warning is kept with all its text, since the addresses must not be in it.
-/

namespace PublicEndorsement.Pes.Tsa

open Mbs

/-! ## Addresses, exceptions and events -/

/-- What is looked at of a `java.net.URI`, and the rest of it. -/
structure Uri where
  scheme : Option String
  host : Option String
  rest : String
  deriving DecidableEq, Repr

/-- `equalsIgnoreCase` for texts that are ASCII, as schemes and media types are. -/
def equalsIgnoreCase (a b : List Char) : Bool := a.map Char.toLower == b.map Char.toLower

def isHttpScheme (scheme : Option String) : Bool :=
  scheme.any (fun s =>
    equalsIgnoreCase "https".toList s.toList || equalsIgnoreCase "http".toList s.toList)

namespace Uri

def isAbsolute (uri : Uri) : Bool := uri.scheme.isSome

def isHttp (uri : Uri) : Bool := isHttpScheme uri.scheme

def hasHost (uri : Uri) : Bool := uri.host.any (fun host => !isBlank (text host))

end Uri

/-- An `SdkException`. For an `S3Exception` it is told whether its class is
`NoSuchBucketException` or `NoSuchKeyException`; the error code is that of its details. -/
inductive SdkException where
  | s3 (noSuch : Bool) (statusCode : ℕ) (awsErrorDetails : Option (Option String))
    (message : String)
  | other (message : String)

def SdkException.message : SdkException → String
  | .s3 _ _ _ message => message
  | .other message => message

/-- An exception by the classes that are caught on the way. -/
inductive ClientException where
  | tsa (message : String) (causes : List JavaException)
  | sdk (e : SdkException)
  | io (message : String)
  | interrupted (message : String)
  | illegalArgument (message : String)
  | illegalState (message : String)
  | other (e : JavaException)

namespace ClientException

def toJava : ClientException → JavaException
  | .tsa message causes => .tsa message causes
  | .sdk e => .unchecked e.message
  | .io message => .checked message
  | .interrupted message => .checked message
  | .illegalArgument message => .unchecked message
  | .illegalState message => .unchecked message
  | .other e => e

def ofJava : JavaException → ClientException
  | .tsa message causes => .tsa message causes
  | e => .other e

end ClientException

inductive ClientEvent where
  | sent (uri : Uri) (requestBytes : Bytes)
  | warning (message : String) (cause : Option JavaException)

def warn (message : String) (cause : Option JavaException) :
    Traced ClientEvent ClientException Unit :=
  Traced.emit (.warning message cause)

/-! ## What a request meets -/

structure TsaConfigDto where
  enabled : Bool
  tsaUrls : Option (List (Option String))

/-- How reading the configuration goes: the object is opened, read and closed. -/
structure S3Answer where
  getObject : Except ClientException Unit
  readValue : Except ClientException (Option TsaConfigDto)
  close : Except ClientException Unit

/-- A body: the bytes that can be read, what reading ends with, and what closing it does. -/
structure Body where
  bytes : Bytes
  failure : Option String
  closeFailure : Option String

/-- `uriScheme` is the scheme of the address that has answered, if there is an address. -/
structure HttpResponse where
  uriScheme : Option (Option String)
  statusCode : ℤ
  contentType : Option String
  body : Option Body

/-- What one request for a token meets. `parseUri` fails with a reason and an index, and
`nextInt n` is a random number below `n + 1`; `sanitize` decodes a text and blanks its control
characters. -/
structure Exchange (Token : Type) where
  bucketName : String
  nanoTime : ℤ
  s3 : S3Answer
  parseUri : String → Except (String × ℤ) Uri
  nextInt : (n : ℕ) → Fin (n + 1)
  nonce : ℕ
  encode : TimeStampRequest → Except String Bytes
  newRequest : Uri → Except String Unit
  send : Uri → Bytes → Except ClientException HttpResponse
  sanitize : Bytes → String
  parseResponse : Bytes → Except JavaException (TimeStampResponse Token)

variable {Token Holder : Type}

/-! ## The configuration -/

structure TsaConfig where
  enabled : Bool
  tsaUrls : List Uri
  deriving DecidableEq, Repr

def TsaConfig.disabled : TsaConfig := ⟨false, []⟩

namespace S3TsaConfigProvider

variable (ex : Exchange Token)

def tsaConfigFileName : String := "tsa-config.json"

def cacheTtl : ℤ := 5 * 60 * 1000000000

def isNotFound : SdkException → Bool
  | .s3 noSuch statusCode awsErrorDetails _ =>
    noSuch || statusCode == 404 || awsErrorDetails.any (fun errorCode =>
      errorCode.any (fun code => equalsIgnoreCase "NoSuchBucket".toList code.toList ||
        equalsIgnoreCase "NoSuchKey".toList code.toList))
  | .other _ => false

def parseAndValidateUri : Option String → Except ClientException Uri
  | none => .error (.tsa "TSA URI in configuration cannot be null" [])
  | some urlStr =>
    match ex.parseUri urlStr with
    | .error (reason, index) => .error (.tsa ("Invalid TSA URI syntax in configuration (" ++
        reason ++ " at index " ++ toString index ++ ")") [])
    | .ok uri =>
      if !uri.isAbsolute || !uri.hasHost || !uri.isHttp then
        .error (.tsa "TSA URI must be an absolute HTTP or HTTPS URL" [])
      else .ok uri

def toConfig (dto : TsaConfigDto) : Except ClientException TsaConfig := do
  let uris ← (dto.tsaUrls.getD []).mapM (parseAndValidateUri ex)
  if dto.enabled && uris.isEmpty then
    throw (.tsa ("TSA is enabled but no TSA URLs were configured in " ++ ex.bucketName ++ "/" ++
      tsaConfigFileName) [])
  else pure ⟨dto.enabled, uris⟩

def readObject : Except ClientException TsaConfig := do
  match ← ex.s3.readValue with
  | none => pure .disabled
  | some dto => toConfig ex dto

def readConfig : Except ClientException TsaConfig := do
  ex.s3.getObject
  match readObject ex with
  | .error e => .error e
  | .ok config => do
    ex.s3.close
    pure config

def printError : SdkException → String
  | .s3 _ _ (some errorCode) _ => errorCode.getD "null"
  | e => e.message

def reportConfig : ClientException → Traced ClientEvent ClientException TsaConfig
  | .sdk e => do
    if isNotFound e then
      warn ("TSA configuration '" ++ ex.bucketName ++ "/" ++ tsaConfigFileName ++
        "' not found (S3 error: " ++ printError e ++ "). Defaulting to disabled.") none
    else
      warn ("Failed to fetch TSA configuration from S3: " ++ ex.bucketName ++ "/" ++
        tsaConfigFileName ++ ". Defaulting to disabled.") (some (.unchecked e.message))
    pure .disabled
  | .io message => do
    warn ("Failed to parse TSA configuration from S3: " ++ ex.bucketName ++ "/" ++
      tsaConfigFileName ++ ". Defaulting to disabled.") (some (.checked message))
    pure .disabled
  | .illegalArgument message => do
    warn ("Invalid TSA configuration in " ++ ex.bucketName ++ "/" ++ tsaConfigFileName ++
      ". Defaulting to disabled.") (some (.unchecked message))
    pure .disabled
  | .tsa message causes => do
    warn ("Invalid TSA configuration in " ++ ex.bucketName ++ "/" ++ tsaConfigFileName ++
      ". Defaulting to disabled.") (some (.tsa message causes))
    pure .disabled
  | e => throw e

def fetchConfig : Traced ClientEvent ClientException TsaConfig :=
  tryCatch (Traced.quiet (readConfig ex)) (reportConfig ex)

structure Memo where
  value : TsaConfig
  expires : ℤ

def live (memo : Option Memo) : Option TsaConfig :=
  (memo.filter (fun m => decide (ex.nanoTime < m.expires))).map Memo.value

def getConfig (memo : Option Memo) : Traced ClientEvent ClientException TsaConfig :=
  match live ex memo with
  | some config => pure config
  | none => fetchConfig ex

/-- What `getConfig` leaves behind; a fetch that throws leaves the old value. -/
def memoAfter (memo : Option Memo) : Option Memo :=
  match live ex memo with
  | some _ => memo
  | none =>
    match (fetchConfig ex).outcome with
    | .ok config => some ⟨config, ex.nanoTime + cacheTtl⟩
    | .error _ => memo

end S3TsaConfigProvider

namespace RandomTsaUrlSelector

variable (ex : Exchange Token)

def selectUrl (memo : Option S3TsaConfigProvider.Memo) :
    Traced ClientEvent ClientException (Option Uri) := do
  let config ← S3TsaConfigProvider.getConfig ex memo
  if !config.enabled then pure none
  else match config.tsaUrls with
    | [] => throw (.tsa "No TSA URLs available in configuration" [])
    | uri :: uris =>
      if uris = [] then pure (some uri)
      else pure (some ((uri :: uris).get (ex.nextInt uris.length)))

end RandomTsaUrlSelector

/-! ## The exchange with the authority -/

namespace SimpleTsaClient

variable (ex : Exchange Token)

def maxErrorBodySnippetBytes : ℕ := 512

def maxResponseBytes : ℕ := 64 * 1024

def timestampReplyContentType : String := "application/timestamp-reply"

/-- `String.trim` takes away what is not above a blank. -/
def trim (s : List Char) : List Char :=
  let isTrimmed (c : Char) : Bool := decide (c.toNat ≤ 0x20)
  ((s.dropWhile isTrimmed).reverse.dropWhile isTrimmed).reverse

def isTimestampReplyContentType (headerValue : String) : Bool :=
  let baseContentType := trim (headerValue.toList.takeWhile (· ≠ ';'))
  equalsIgnoreCase timestampReplyContentType.toList baseContentType

def readBytes (body : Option Body) (maxBytes : ℕ) : Except String Bytes :=
  match body with
  | none => .ok []
  | some b =>
    if maxBytes ≤ b.bytes.length then .ok (b.bytes.take maxBytes)
    else match b.failure with
      | some message => .error message
      | none => .ok b.bytes

def readBoundedBody (body : Option Body) (maxBytes : ℕ) : Except ClientException Bytes := do
  let bytes ← (readBytes body (maxBytes + 1)).mapError .io
  if bytes.length > maxBytes then
    throw (.tsa ("TSA response exceeded maximum allowed size of " ++ toString maxBytes ++
      " bytes") [])
  else pure bytes

def bodySnippet (body : Option Body) : String :=
  match readBytes body maxErrorBodySnippetBytes with
  | .ok errorBytes => if errorBytes = [] then "<empty body>" else ex.sanitize errorBytes
  | .error message => "<failed to read error body: " ++ message ++ ">"

def readResponse (r : HttpResponse) : Except ClientException Bytes :=
  if r.uriScheme.any (fun scheme => !isHttpScheme scheme) then
    .error (.tsa "TSA response redirected to non-HTTP/HTTPS URI" [])
  else if r.statusCode ≠ 200 then
    .error (.tsa ("TSA server returned HTTP " ++ toString r.statusCode ++ ": " ++
      bodySnippet ex r.body) [])
  else if !r.contentType.any isTimestampReplyContentType then
    .error (.tsa ("TSA server returned invalid Content-Type: " ++ r.contentType.getD "<none>" ++
      " (expected " ++ timestampReplyContentType ++ ")") [])
  else readBoundedBody r.body maxResponseBytes

/-- The body is closed after it was read; an exception of the block hides one of closing. -/
def closing (body : Option Body) (block : Except ClientException Bytes) :
    Except ClientException Bytes :=
  match block with
  | .error e => .error e
  | .ok bytes =>
    match body.bind Body.closeFailure with
    | some message => .error (.io message)
    | none => .ok bytes

def sendHttpRequest (tsaUri : Uri) (requestBytes : Bytes) :
    Traced ClientEvent ClientException Bytes :=
  match ex.newRequest tsaUri with
  -- The message has the address in it and is not passed on.
  | .error _ => throw (.tsa "Invalid TSA URI" [])
  | .ok () => do
    Traced.emit (.sent tsaUri requestBytes)
    let httpResponse ← Traced.quiet (ex.send tsaUri requestBytes)
    let responseBytes ← Traced.quiet (closing httpResponse.body (readResponse ex httpResponse))
    if responseBytes = [] then throw (.tsa "Received empty response body from TSA" [])
    else pure responseBytes

variable (lib : Library Token Holder) (v : TsaTimestampVerifierImpl)

def parseAndVerifyToken (responseBytes : Bytes) (request : TimeStampRequest) :
    Except ClientException TimeStampToken :=
  match ex.parseResponse responseBytes with
  | .error e => .error (.tsa "Malformed RFC 3161 response from TSA" [e])
  | .ok tsResponse =>
    (v.extractTokenAndVerify lib tsResponse request).mapError ClientException.ofJava

def requestToken (tsaUri : Uri) (hashAlgorithmOid : Oid) (digest : Bytes) :
    Traced ClientEvent ClientException TimeStampToken := do
  let request := createTimestampRequest hashAlgorithmOid digest ex.nonce
  let requestBytes ← Traced.quiet ((ex.encode request).mapError .io)
  let responseBytes ← sendHttpRequest ex tsaUri requestBytes
  Traced.quiet (parseAndVerifyToken ex lib v responseBytes request)

def rethrow : ClientException → ClientException
  | .interrupted message =>
    .tsa "Interrupted while obtaining timestamp token from TSA" [.checked message]
  | .io message => .tsa "Failed to obtain timestamp token from TSA" [.checked message]
  | e => e

def requestTimeStampToken (memo : Option S3TsaConfigProvider.Memo) (data : Bytes) :
    Traced ClientEvent ClientException (Option TimeStampToken) :=
  if data = [] then throw (.illegalArgument "data cannot be empty")
  else do
    match ← RandomTsaUrlSelector.selectUrl ex memo with
    | none => pure none
    | some tsaUri =>
      if !tsaUri.isHttp || !tsaUri.hasHost then
        throw (.tsa "TSA URI must use HTTP or HTTPS scheme and specify a host" [])
      else
        match lib.messageDigest "SHA-384" with
        | none => throw (.illegalState "SHA-384 algorithm not available")
        | some digest =>
          tryCatch
            (do
              let token ← requestToken ex lib v tsaUri idSha384 (digest data)
              pure (some token))
            (fun e => throw (rethrow e))

end SimpleTsaClient

/-- The part of `SignatureGeneratorImpl.generate` that asks for a token. -/
def tokenOrNone (ex : Exchange Token) (lib : Library Token Holder) (v : TsaTimestampVerifierImpl)
    (memo : Option S3TsaConfigProvider.Memo) (data : Bytes) :
    Traced ClientEvent ClientException (Option TimeStampToken) :=
  tryCatch (SimpleTsaClient.requestTimeStampToken ex lib v memo data) (fun e => do
    warn "Failed to obtain TSA timestamp token. Proceeding without timestamp." (some e.toJava)
    pure none)

end PublicEndorsement.Pes.Tsa
