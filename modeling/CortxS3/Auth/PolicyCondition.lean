/-
The conditions of a policy statement.

A condition has a type, a key and values.  `ConditionFactory` makes one of five classes of it, and
each of these says whether a request satisfies it.  Four of them first look up one text in the
request and compare that with the values.

Dates are read by the AWS SDK and by `SimpleDateFormat`, which are parameters.  A date is its
milliseconds.  `DateCondition` keeps the dates of a condition in a static field; that two requests
may write it at once is left out.
-/
import CortxS3.Auth.PolicyUtil

namespace CortxS3

/-- The entries of the map a request to the auth server comes as, in the order of its keys. -/
abbrev BodyMap := List (JavaString × JavaString)

namespace BodyMap

/-- `requestBody.get(name)`. -/
def get (C : CharacterData) (body : BodyMap) (name : JavaString) : Option JavaString :=
  (body.find? fun entry => C.equalsIgnoreCase entry.1 name).map (·.2)

end BodyMap

/-! ### The text that a condition is about -/

/-- The loop over the entries that String, Numeric and Boolean conditions begin with. -/
def headerLoop (C : CharacterData) (conditionKey : JavaString) :
    BodyMap → Option JavaString → Except JavaException (Option JavaString)
  | [], headerVal => .ok headerVal
  | (name, value) :: rest, headerVal =>
    if C.equalsIgnoreCase name conditionKey then headerLoop C conditionKey rest (some value)
    else if name = java "ClientQueryParams" then
      match PolicyUtil.fetchQueryParamValue value conditionKey with
      | .error e => .error e
      | .ok (some found) => .ok (some found)
      | .ok none => headerLoop C conditionKey rest none
    else headerLoop C conditionKey rest headerVal

def headerValue (C : CharacterData) (conditionKey : JavaString) (requestBody : BodyMap) :
    Except JavaException (Option JavaString) :=
  headerLoop C conditionKey requestBody none

/-! ### Strings -/

namespace StringCondition

inductive StringComparisonType where
  | stringEquals
  | stringEqualsIgnoreCase
  | stringLike
  | stringNotEquals
  | stringNotEqualsIgnoreCase
  | stringNotLike
  | stringEqualsIfExists
  | stringEqualsIgnoreCaseIfExists
  | stringLikeIfExists
  | stringNotEqualsIfExists
  | stringNotEqualsIgnoreCaseIfExists
  | stringNotLikeIfExists
deriving DecidableEq

variable (C : CharacterData) (values : List JavaString)

def stringEquals (headerVal : Option JavaString) : Bool :=
  match headerVal with
  | none => false
  | some text => values.contains text

def stringEqualsIgnoreCase (headerVal : Option JavaString) : Bool :=
  match headerVal with
  | none => false
  | some text => values.any fun val => C.equalsIgnoreCase val text

/-- The length of a text that is null is asked as soon as there is a value. -/
def stringLike (headerVal : Option JavaString) : Except JavaException Bool :=
  match headerVal with
  | none => if values = [] then .ok false else .error .nullPointer
  | some text => .ok (values.any fun val => PolicyUtil.isPatternMatching text val)

/-- The `switch` of `isSatisfied`. -/
def compare (headerVal : Option JavaString) : StringComparisonType → Except JavaException Bool
  | .stringEquals => .ok (stringEquals values headerVal)
  | .stringEqualsIgnoreCase => .ok (stringEqualsIgnoreCase C values headerVal)
  | .stringLike => stringLike values headerVal
  | .stringNotEquals => .ok (!stringEquals values headerVal)
  | .stringNotEqualsIgnoreCase => .ok (!stringEqualsIgnoreCase C values headerVal)
  | .stringNotLike => (stringLike values headerVal).map (!·)
  | .stringEqualsIfExists =>
    if headerVal.isSome then .ok (stringEquals values headerVal) else .ok true
  | .stringEqualsIgnoreCaseIfExists =>
    if headerVal.isSome then .ok (stringEqualsIgnoreCase C values headerVal) else .ok true
  | .stringLikeIfExists =>
    if headerVal.isSome then stringLike values headerVal else .ok true
  | .stringNotEqualsIfExists =>
    if headerVal.isSome then .ok (!stringEquals values headerVal) else .ok true
  | .stringNotEqualsIgnoreCaseIfExists =>
    if headerVal.isSome then .ok (!stringEqualsIgnoreCase C values headerVal) else .ok true
  | .stringNotLikeIfExists =>
    if headerVal.isSome then (stringLike values headerVal).map (!·) else .ok true

/-- The key has been put into lower case when the condition was made. -/
def isSatisfied (type : StringComparisonType) (key : JavaString) (requestBody : BodyMap) :
    Except JavaException Bool := do
  compare C values (← headerValue C (C.toLowerCase key) requestBody) type

/-- `getEnum`. -/
def getEnum (enumName : JavaString) : Option StringComparisonType :=
  (names.find? fun entry => entry.1 = enumName).map (·.2)
where
  names := [
    (java "StringEquals", .stringEquals),
    (java "StringEqualsIgnoreCase", .stringEqualsIgnoreCase),
    (java "StringLike", .stringLike),
    (java "StringNotEquals", .stringNotEquals),
    (java "StringNotEqualsIgnoreCase", .stringNotEqualsIgnoreCase),
    (java "StringNotLike", .stringNotLike),
    (java "StringEqualsIfExists", .stringEqualsIfExists),
    (java "StringEqualsIgnoreCaseIfExists", .stringEqualsIgnoreCaseIfExists),
    (java "StringLikeIfExists", .stringLikeIfExists),
    (java "StringNotEqualsIfExists", .stringNotEqualsIfExists),
    (java "StringNotEqualsIgnoreCaseIfExists", .stringNotEqualsIgnoreCaseIfExists),
    (java "StringNotLikeIfExists", .stringNotLikeIfExists)]

end StringCondition

/-! ### Numbers -/

namespace NumericCondition

inductive NumericComparisonType where
  | numericEquals
  | numericGreaterThan
  | numericGreaterThanEquals
  | numericLessThan
  | numericLessThanEquals
  | numericNotEquals
  | numericEqualsIfExists
  | numericGreaterThanIfExists
  | numericGreaterThanEqualsIfExists
  | numericLessThanIfExists
  | numericLessThanEqualsIfExists
  | numericNotEqualsIfExists
deriving DecidableEq

variable (C : CharacterData) (values : List JavaString)

/-- The number a request's text says. -/
def headerNumber (text : JavaString) : Option Int := JavaString.parseLong C (JavaString.trim text)

/-- All values are read before one is compared. -/
def numericEquals (headerVal : Option JavaString) : Bool :=
  match headerVal.bind (headerNumber C) with
  | none => false
  | some longHeader =>
    match values.mapM (JavaString.parseLong C) with
    | none => false
    | some longValues => longValues.contains longHeader

/-- The loop of the two comparisons below: the first hit ends it, and so does an exception. -/
def anyValue (hit : Int → Bool) : List JavaString → Bool
  | [] => false
  | s :: rest =>
    match JavaString.parseLong C s with
    | none => false
    | some conditionVal => if hit conditionVal then true else anyValue hit rest

def numericGreaterThan (headerVal : Option JavaString) : Bool :=
  match headerVal.bind (headerNumber C) with
  | none => false
  | some longHeader => anyValue C (fun conditionVal => longHeader > conditionVal) values

def numericGreaterThanEquals (headerVal : Option JavaString) : Bool :=
  match headerVal.bind (headerNumber C) with
  | none => false
  | some longHeader => anyValue C (fun conditionVal => longHeader ≥ conditionVal) values

/-- The `switch` of `isSatisfied`. -/
def compare (headerVal : Option JavaString) : NumericComparisonType → Bool
  | .numericEquals => numericEquals C values headerVal
  | .numericGreaterThan => numericGreaterThan C values headerVal
  | .numericGreaterThanEquals => numericGreaterThanEquals C values headerVal
  | .numericLessThan =>
    if headerVal.isSome then !numericGreaterThanEquals C values headerVal else false
  | .numericLessThanEquals =>
    if headerVal.isSome then !numericGreaterThan C values headerVal else false
  | .numericNotEquals => !numericEquals C values headerVal
  | .numericEqualsIfExists =>
    if headerVal.isSome then numericEquals C values headerVal else true
  | .numericGreaterThanIfExists =>
    if headerVal.isSome then numericGreaterThan C values headerVal else true
  | .numericGreaterThanEqualsIfExists =>
    if headerVal.isSome then numericGreaterThanEquals C values headerVal else true
  | .numericLessThanIfExists =>
    if headerVal.isSome then !numericGreaterThanEquals C values headerVal else true
  | .numericLessThanEqualsIfExists =>
    if headerVal.isSome then !numericGreaterThan C values headerVal else true
  | .numericNotEqualsIfExists =>
    if headerVal.isSome then !numericEquals C values headerVal else true

def isSatisfied (type : NumericComparisonType) (key : JavaString) (requestBody : BodyMap) :
    Except JavaException Bool := do
  .ok (compare C values (← headerValue C key requestBody) type)

/-- `getEnum`. -/
def getEnum (enumName : JavaString) : Option NumericComparisonType :=
  (names.find? fun entry => entry.1 = enumName).map (·.2)
where
  names := [
    (java "NumericEquals", .numericEquals),
    (java "NumericGreaterThan", .numericGreaterThan),
    (java "NumericGreaterThanEquals", .numericGreaterThanEquals),
    (java "NumericLessThan", .numericLessThan),
    (java "NumericLessThanEquals", .numericLessThanEquals),
    (java "NumericNotEquals", .numericNotEquals),
    (java "NumericEqualsIfExists", .numericEqualsIfExists),
    (java "NumericGreaterThanIfExists", .numericGreaterThanIfExists),
    (java "NumericGreaterThanEqualsIfExists", .numericGreaterThanEqualsIfExists),
    (java "NumericLessThanIfExists", .numericLessThanIfExists),
    (java "NumericLessThanEqualsIfExists", .numericLessThanEqualsIfExists),
    (java "NumericNotEqualsIfExists", .numericNotEqualsIfExists)]

end NumericCondition

/-! ### Booleans and absence -/

namespace BooleanCondition

inductive BooleanComparisonType where
  | bool
  | boolIfExists
deriving DecidableEq

variable (C : CharacterData) (values : List JavaString)

/-- `Boolean.parseBoolean(s)`. -/
def parseBoolean (s : JavaString) : Bool := C.equalsIgnoreCase (java "true") s

/-- A value that is one of the two words. -/
def isBoolean (s : JavaString) : Bool :=
  C.equalsIgnoreCase (java "true") s || C.equalsIgnoreCase (java "false") s

def booleanEquals (headerVal : Option JavaString) : Bool :=
  match headerVal with
  | none => false
  | some text =>
    ((values.filter (isBoolean C)).map (parseBoolean C)).contains
      (parseBoolean C (JavaString.trim text))

/-- The `switch` of `isSatisfied`. -/
def compare (headerVal : Option JavaString) : BooleanComparisonType → Bool
  | .bool => booleanEquals C values headerVal
  | .boolIfExists => if headerVal.isSome then booleanEquals C values headerVal else true

def isSatisfied (type : BooleanComparisonType) (key : JavaString) (requestBody : BodyMap) :
    Except JavaException Bool := do
  .ok (compare C values (← headerValue C key requestBody) type)

/-- `getEnum`. -/
def getEnum (enumName : JavaString) : Option BooleanComparisonType :=
  (names.find? fun entry => entry.1 = enumName).map (·.2)
where
  names := [
    (java "Bool", .bool),
    (java "BoolIfExists", .boolIfExists)]

end BooleanCondition

namespace NullCondition

variable (C : CharacterData)

/-- Whether the key is in the request, as an entry or as a query parameter.  Both loops of the
source stop here; the values of the map are never null. -/
def found (conditionKey : JavaString) : BodyMap → Except JavaException Bool
  | [] => .ok false
  | (name, value) :: rest =>
    if C.equalsIgnoreCase name conditionKey then .ok true
    else if name = java "ClientQueryParams" then
      match PolicyUtil.fetchQueryParamValue value conditionKey with
      | .error e => .error e
      | .ok (some _) => .ok true
      | .ok none => found conditionKey rest
    else found conditionKey rest

def isSatisfied (conditionKey : JavaString) (requestBody : BodyMap) :
    List JavaString → Except JavaException Bool
  | [] => .ok false
  | v :: rest =>
    if BooleanCondition.isBoolean C v then
      match found C conditionKey requestBody with
      | .error e => .error e
      | .ok here =>
        -- `true` asks for absence
        if here = !BooleanCondition.parseBoolean C v then .ok true
        else isSatisfied conditionKey requestBody rest
    else isSatisfied conditionKey requestBody rest

end NullCondition

namespace ConditionUtil

/-- `removeKeyPrefix`. -/
def removeKeyPrefix (key : JavaString) : JavaString :=
  if (java "s3:").isPrefixOf key then key.drop 3
  else if (java "aws:").isPrefixOf key then key.drop 4
  else key

end ConditionUtil

/-! ### Dates -/

/-- The parsers of others: a date in milliseconds, or nothing where they throw. -/
structure DateParsers where
  /-- `DateUtils.parseISO8601Date`. -/
  parseISO8601Date : JavaString → Option Int
  /-- `DateUtils.parseServiceSpecificDate`. -/
  parseServiceSpecificDate : JavaString → Option Int
  /-- `DateUtils.parseCompressedISO8601Date`. -/
  parseCompressedISO8601Date : JavaString → Option Int
  /-- `SimpleDateFormat("EEE, dd MMM yyyy HH:mm:ss").parse`, in UTC. -/
  parseRFC822Date : JavaString → Option Int

namespace DateCondition

inductive DateComparisonType where
  | dateEquals
  | dateGreaterThan
  | dateGreaterThanEquals
  | dateLessThan
  | dateLessThanEquals
  | dateNotEquals
  | dateEqualsIfExists
  | dateGreaterThanIfExists
  | dateGreaterThanEqualsIfExists
  | dateLessThanIfExists
  | dateLessThanEqualsIfExists
  | dateNotEqualsIfExists
deriving DecidableEq

/-! The regular expressions of `parseCurrentTime` that lead to an action. -/

def isDigit (c : UInt16) : Bool := 48 ≤ c && c ≤ 57

/-- `[12]\d{3}-(0[1-9]|1[0-2])-(0[1-9]|[12]\d|3[01])`. -/
def isYearMonthDay : JavaString → Bool
  | [y, y', y'', y''', dash, m, m', dash', d, d'] =>
    (y == 49 || y == 50) && isDigit y' && isDigit y'' && isDigit y''' && dash == 45 &&
      ((m == 48 && 49 ≤ m' && m' ≤ 57) || (m == 49 && 48 ≤ m' && m' ≤ 50)) && dash' == 45 &&
        ((d == 48 && 49 ≤ d' && d' ≤ 57) || ((d == 49 || d == 50) && isDigit d') ||
          (d == 51 && (d' == 48 || d' == 49)))
  | _ => false

/-- `((0|1)[0-9]|2[0-4]):((0|1|2|3|4|5)[0-9])`. -/
def isHourMinute : JavaString → Bool
  | [h, h', colon, m, m'] =>
    (((h == 48 || h == 49) && isDigit h') || (h == 50 && 48 ≤ h' && h' ≤ 52)) && colon == 58 &&
      48 ≤ m && m ≤ 53 && isDigit m'
  | _ => false

/-- `regexDateISO8601`. -/
def isDateISO8601 (s : JavaString) : Bool :=
  s.length = 17 && isYearMonthDay (s.take 10) && s.getD 10 0 == 84 &&
    isHourMinute ((s.drop 11).take 5) && s.getD 16 0 == 90

/-- What `.` does not match. -/
def isLineTerminator (c : UInt16) : Bool :=
  c == 10 || c == 13 || c == 0x85 || c == 0x2028 || c == 0x2029

/-- `regexDateISO8601_decimal`; its `.` is any character. -/
def isDateISO8601Decimal (s : JavaString) : Bool :=
  isYearMonthDay (s.take 10) && s.getD 10 0 == 84 && isHourMinute ((s.drop 11).take 5) &&
    match s.drop 16 with
    | colon :: c :: c' :: any :: rest =>
      colon == 58 && 48 ≤ c && c ≤ 53 && isDigit c' && !isLineTerminator any &&
        rest.getLast? == some 90 && rest.dropLast != [] && rest.dropLast.all isDigit
    | _ => false

/-- `dateString.replace("Z", ":00Z")`. -/
def addSeconds (s : JavaString) : JavaString :=
  s.flatMap fun c => if c = 90 then [58, 48, 48, 90] else [c]

/-- `dateString.replaceAll(".\\d+Z", "Z")`. -/
def dropFraction : JavaString → JavaString
  | [] => []
  | c :: rest =>
    if !isLineTerminator c && (rest.takeWhile isDigit) != [] &&
        (rest.dropWhile isDigit).head? == some 90 then
      dropFraction (rest.dropWhile isDigit)
    else c :: dropFraction rest
termination_by s => s.length
decreasing_by
  · have := (List.dropWhile_sublist (l := rest) isDigit).length_le
    simp only [List.length_cons]
    omega
  · simp

variable (C : CharacterData) (P : DateParsers)

def parseCurrentTime (dateString : JavaString) : Option Int :=
  P.parseISO8601Date
    (if isYearMonthDay dateString then dateString ++ java "T00:00:00Z"
     else if isDateISO8601 dateString then addSeconds dateString
     else if isDateISO8601Decimal dateString then dropFraction dateString
     else dateString)

def parseEpochTime (dateString : JavaString) : Option Int := P.parseServiceSpecificDate dateString

/-- The date of a request's text.  A text that is null is no date. -/
def parseDate : Option JavaString → Option Int
  | none => none
  | some dateString =>
    match P.parseCompressedISO8601Date dateString with
    | some date => some date
    | none =>
      if JavaString.trim dateString = [] then none else P.parseRFC822Date dateString

/-- The text that `populateRequestDate` reads. -/
def requestDateString (requestBody : BodyMap) : Option JavaString :=
  match requestBody.get C (java "X-Amz-Date") with
  | some text => some text
  | none => requestBody.get C (java "Date")

/-- The first entry under the key, once prefixes are removed from the names. -/
def headerEntry (conditionKey : JavaString) (requestBody : BodyMap) : Option JavaString :=
  (requestBody.find? fun entry =>
    C.equalsIgnoreCase conditionKey (ConditionUtil.removeKeyPrefix entry.1)).map (·.2)

/-- What the loop over the values has found out. -/
structure Found where
  conditionDates : List Int := []
  keyExsists : Bool := false
  isRequestDateHeaderRequired : Bool := false
  requestDate : Option Int := none
deriving DecidableEq

/-- One value.  A value that is no date ends the whole call with false. -/
def valueStep (conditionKey : JavaString) (requestBody : BodyMap) (found : Found)
    (date : JavaString) : Option Found :=
  if C.equalsIgnoreCase conditionKey (java "CurrentTime") then
    (parseCurrentTime P date).map fun d => { found with
      keyExsists := true
      isRequestDateHeaderRequired := true
      conditionDates := found.conditionDates ++ [d] }
  else if C.equalsIgnoreCase conditionKey (java "EpochTime") then
    (parseEpochTime P date).map fun d => { found with
      keyExsists := true
      isRequestDateHeaderRequired := true
      conditionDates := found.conditionDates ++ [d] }
  else
    let found := match headerEntry C conditionKey requestBody with
      | some headerVal =>
        { found with requestDate := parseDate P (some headerVal), keyExsists := true }
      | none => found
    (parseCurrentTime P date).map fun d =>
      { found with conditionDates := found.conditionDates ++ [d] }

def dateEquals (conditionDates : List Int) : Option Int → Bool
  | none => false
  | some requestDate => conditionDates.any fun conditionDate => requestDate == conditionDate

def dateLessThan (conditionDates : List Int) : Option Int → Bool
  | none => false
  | some requestDate => conditionDates.any fun conditionDate => requestDate < conditionDate

def dateGreaterThan (conditionDates : List Int) : Option Int → Bool
  | none => false
  | some requestDate => conditionDates.any fun conditionDate => requestDate > conditionDate

/-- The `switch` of `isSatisfied`. -/
def compare (dates : List Int) (keyExsists : Bool) (requestDate : Option Int) :
    DateComparisonType → Bool
  | .dateEquals => dateEquals dates requestDate
  | .dateGreaterThan => dateGreaterThan dates requestDate
  | .dateLessThan => dateLessThan dates requestDate
  | .dateNotEquals => !dateEquals dates requestDate
  | .dateLessThanEquals =>
    if requestDate.isSome then !dateGreaterThan dates requestDate else false
  | .dateGreaterThanEquals =>
    if requestDate.isSome then !dateLessThan dates requestDate else false
  | .dateEqualsIfExists => if keyExsists then dateEquals dates requestDate else true
  | .dateGreaterThanIfExists => if keyExsists then dateGreaterThan dates requestDate else true
  | .dateGreaterThanEqualsIfExists =>
    if keyExsists then
      if requestDate.isSome then !dateLessThan dates requestDate else false
    else true
  | .dateLessThanIfExists => if keyExsists then dateLessThan dates requestDate else true
  | .dateLessThanEqualsIfExists =>
    if keyExsists then
      if requestDate.isSome then !dateGreaterThan dates requestDate else false
    else true
  | .dateNotEqualsIfExists => if keyExsists then !dateEquals dates requestDate else true

def isSatisfied (type : DateComparisonType) (conditionKey : JavaString) (values : List JavaString)
    (requestBody : BodyMap) : Bool :=
  match values.foldlM (valueStep C P conditionKey requestBody) {} with
  | none => false
  | some found =>
    let requestDate :=
      if found.isRequestDateHeaderRequired then parseDate P (requestDateString C requestBody)
      else found.requestDate
    compare found.conditionDates found.keyExsists requestDate type

/-- `getEnum`. -/
def getEnum (enumName : JavaString) : Option DateComparisonType :=
  (names.find? fun entry => entry.1 = enumName).map (·.2)
where
  names := [
    (java "DateEquals", .dateEquals),
    (java "DateGreaterThan", .dateGreaterThan),
    (java "DateGreaterThanEquals", .dateGreaterThanEquals),
    (java "DateLessThan", .dateLessThan),
    (java "DateLessThanEquals", .dateLessThanEquals),
    (java "DateNotEquals", .dateNotEquals),
    (java "DateEqualsIfExists", .dateEqualsIfExists),
    (java "DateGreaterThanIfExists", .dateGreaterThanIfExists),
    (java "DateGreaterThanEqualsIfExists", .dateGreaterThanEqualsIfExists),
    (java "DateLessThanIfExists", .dateLessThanIfExists),
    (java "DateLessThanEqualsIfExists", .dateLessThanEqualsIfExists),
    (java "DateNotEqualsIfExists", .dateNotEqualsIfExists)]

end DateCondition

/-! ### All conditions -/

/-- What `ConditionFactory` makes. -/
inductive PolicyCondition where
  | string (type : StringCondition.StringComparisonType) (key : JavaString)
      (values : List JavaString)
  | date (type : DateCondition.DateComparisonType) (key : JavaString) (values : List JavaString)
  | numeric (type : NumericCondition.NumericComparisonType) (key : JavaString)
      (values : List JavaString)
  | boolean (type : BooleanCondition.BooleanComparisonType) (key : JavaString)
      (values : List JavaString)
  | null (key : JavaString) (values : List JavaString)
deriving DecidableEq

namespace PolicyCondition

/-- `ConditionFactory.getCondition`. -/
def getCondition (conditionType key : JavaString) (values : List JavaString) :
    Option PolicyCondition :=
  match StringCondition.getEnum conditionType with
  | some type => some (.string type key values)
  | none =>
    match DateCondition.getEnum conditionType with
    | some type => some (.date type key values)
    | none =>
      match NumericCondition.getEnum conditionType with
      | some type => some (.numeric type key values)
      | none =>
        match BooleanCondition.getEnum conditionType with
        | some type => some (.boolean type key values)
        | none => if conditionType = java "Null" then some (.null key values) else none

def isSatisfied (C : CharacterData) (P : DateParsers) (requestBody : BodyMap) :
    PolicyCondition → Except JavaException Bool
  | .string type key values => StringCondition.isSatisfied C values type key requestBody
  | .date type key values => .ok (DateCondition.isSatisfied C P type key values requestBody)
  | .numeric type key values => NumericCondition.isSatisfied C values type key requestBody
  | .boolean type key values => BooleanCondition.isSatisfied C values type key requestBody
  | .null key values => NullCondition.isSatisfied C key requestBody values

end PolicyCondition

end CortxS3
