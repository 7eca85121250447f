/-
The continuation token of List Objects V2, `S3GetBucketActionV2`.

A truncated page names the key it ends at, and the next request begins there.  The client does not
see the key: the bytes of it are XORed with a number that depends on the length, and written in
base64.  Before that the key is kept in the `S3ObjectListResponseV2`, which encodes it for a URL when
the request asks for it, and decodes it again.

The two functions that do this are those of libevent, `evhttp_uriencode` and `evhttp_uridecode`.
They are a parameter (`UriCodec`), with what is said about them: an encoded text has no NUL, and
decoding gives back what was encoded.
-/
import CortxS3.Server.Base64
import CortxS3.Server.RequestObject

namespace CortxS3

namespace S3XORObfuscator

def obfuscate (input : Bytes) : Bytes :=
  let xorbyte := UInt8.ofNat (input.length + 255)
  input.map fun c => c ^^^ xorbyte

def encode (input : Bytes) : Bytes := obfuscate input

def decode (input : Bytes) : Bytes := obfuscate input

end S3XORObfuscator

/-- What `S3ObjectListResponseV2` knows of the end of a page. -/
structure S3ObjectListResponseV2 where
  /-- `encoding_type == "url"`. -/
  encodingUrl : Bool := false
  nextMarkerKey : Bytes := []
deriving DecidableEq

namespace S3ObjectListResponseV2

variable (u : UriCodec)

def getResponseFormatKeyValue (r : S3ObjectListResponseV2) (keyValue : Bytes) : Bytes :=
  if r.encodingUrl then u.encode (cStr keyValue) else keyValue

def setNextMarkerKey (r : S3ObjectListResponseV2) (next : Bytes) (urlEncode : Bool := true) :
    S3ObjectListResponseV2 :=
  { r with nextMarkerKey := if urlEncode then r.getResponseFormatKeyValue u next else next }

def getNextMarkerKey (r : S3ObjectListResponseV2) : Bytes :=
  if r.encodingUrl then cStr (u.decode (cStr r.nextMarkerKey)) else r.nextMarkerKey

end S3ObjectListResponseV2

namespace S3GetBucketActionV2

variable (u : UriCodec)

/-- `base64_encode` of a string, whose length it takes as an `unsigned`. -/
def base64EncodeString (s : Bytes) : Bytes := base64Encode (s.take (toUInt s.length))

/-- `send_response_to_s3_client`, as far as the token goes. -/
def obfuscateNextMarker (r : S3ObjectListResponseV2) : S3ObjectListResponseV2 :=
  let obfuscatedNextmarker := S3XORObfuscator.encode (r.getNextMarkerKey u)
  r.setNextMarkerKey u (base64EncodeString obfuscatedNextmarker) false

/-- The token of a page that ends at a key. -/
def nextContinuationToken (encodingUrl : Bool) (lastKey : Bytes) : Bytes :=
  let response : S3ObjectListResponseV2 := { encodingUrl := encodingUrl }
  (obfuscateNextMarker u (response.setNextMarkerKey u lastKey)).nextMarkerKey

/-- `after_validate_request`: the key that the listing begins behind. -/
def afterValidateRequest (requestContToken requestStartAfter : Bytes) : Bytes :=
  if requestContToken = [] then requestStartAfter
  else S3XORObfuscator.decode (base64Decode requestContToken)

end S3GetBucketActionV2

end CortxS3
