/-
Which resource a request names: `S3URI` and its two kinds, and the name of the host that the second
one is made of.

A request names its bucket in the path or in the name of the host it was sent to.  In the second
case the bucket stands before the name of the service, and which of the names of the service it is
has to be found out: every name in the configuration is tried, the default one first and then those
of the regions in the order of their `std::set`, and a later one that occurs in the host takes the
place of an earlier one.

`inet_pton` belongs to the system and is a parameter; the operation code, which is found in the same
way for both kinds, is left out.
-/
import CortxS3.Server.RequestObject
import CortxS3.Server.S3Option

namespace CortxS3

/-- The address families. -/
inductive AddressFamily where
  | AF_INET
  | AF_INET6
deriving DecidableEq

namespace RequestObject

section Host

-- whether `inet_pton` returns other than 0
variable (inetPton : AddressFamily → Bytes → Bool)

def isValidIpaddress (ipaddr : Bytes) : Bool :=
  if (find (ascii ":") ipaddr).isSome then inetPton .AF_INET6 (cStr ipaddr)
  else inetPton .AF_INET (cStr ipaddr)

/-- `rfind(":")`: where the last colon stands. -/
def rfindColon (s : Bytes) : Option Nat :=
  (find (ascii ":") s.reverse).map fun back => s.length - 1 - back

def getHostHeader (r : RequestObject) : Bytes := r.getHeaderValue (ascii "Host")

/-- The host without the port, when there is one. -/
def hostNameOf (originalHostHeader : Bytes) : Bytes :=
  match rfindColon originalHostHeader with
  | none => originalHostHeader
  | some pos =>
    let hostName := originalHostHeader.take pos
    if isValidIpaddress inetPton hostName then hostName
    else if (find (ascii ":") hostName).isNone then hostName
    else if isValidIpaddress inetPton originalHostHeader then originalHostHeader
    else hostName

def getHostName (r : RequestObject) : Bytes := hostNameOf inetPton r.getHostHeader

end Host

/-- `c_get_full_path`, decoded when the request begins. -/
def cGetFullPath (r : RequestObject) : Bytes :=
  match r.fullEncodedPath with
  | some full => cStr (evhttpUridecode (cStr full))
  | none => []

end RequestObject

/-! ### The two kinds -/

structure S3URI where
  s3ApiType : S3ApiType := .unsupported
  bucketName : Bytes := []
  objectName : Bytes := []
deriving DecidableEq

def S3PathStyleURI (o : S3Option) (r : RequestObject) : S3URI :=
  let fullUri := r.cGetFullPath
  if fullUri = ascii "/" then
    if o.isFiEnabled ∧ r.getHeaderValue (ascii "x-seagate-faultinjection") ≠ [] then
      { s3ApiType := .faultinjection }
    else { s3ApiType := .service }
  else if r.getHeaderValue (ascii "x-seagate-mgmt-api") = ascii "true" then
    { s3ApiType := .management }
  else
    match findFrom (ascii "/") fullUri 1 with
    | none => { s3ApiType := .bucket, bucketName := cStr (fullUri.drop 1) }
    | some pos =>
      if pos = fullUri.length - 1 then
        { s3ApiType := .bucket, bucketName := (fullUri.drop 1).take (fullUri.length - 2) }
      else
        { s3ApiType := .object
          bucketName := (fullUri.drop 1).take (pos - 1)
          objectName := cStr (fullUri.drop (pos + 1)) }

/-- `host_header.substr(0, host_header.length() - endpoint.length() - 1)`.  The difference is
unsigned: where the host is the endpoint it wraps, and the whole host is taken. -/
def hostBefore (hostHeader endpoint : Bytes) : Bytes :=
  if hostHeader.length < endpoint.length + 1 then hostHeader
  else hostHeader.take (hostHeader.length - endpoint.length - 1)

/-- One name of the service is tried. -/
def tryEndpoint (hostHeader : Bytes) (bucketName endpoint : Bytes) : Bytes :=
  if (find endpoint hostHeader).isSome then hostBefore hostHeader endpoint else bucketName

/-- `setup_bucket_name`. -/
def setupBucketName (o : S3Option) (hostHeader : Bytes) : Bytes :=
  o.regionEndpoints.foldl (tryEndpoint hostHeader) (tryEndpoint hostHeader [] o.defaultEndpoint)

def S3VirtualHostStyleURI (o : S3Option) (inetPton : AddressFamily → Bytes → Bool)
    (r : RequestObject) : S3URI :=
  let bucketName := setupBucketName o (r.getHostName inetPton)
  let fullUri := r.cGetFullPath
  if fullUri = ascii "/" then { s3ApiType := .bucket, bucketName := bucketName }
  else { s3ApiType := .object, bucketName := bucketName, objectName := cStr (fullUri.drop 1) }

end CortxS3
