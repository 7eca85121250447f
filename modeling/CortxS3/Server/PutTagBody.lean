/-
The tags of a bucket or an object, as they are read from the body of a request: `S3PutTagBody`.

The body is XML.  libxml2, which is not part of the repository, makes a tree of it; what the code
uses of the tree is the name of a node, its children and the text in it.  A text node and a
comment have names of their own and no children.

The first child of the root is taken for the tag set, and its children are gone through with a
pointer that is moved on behind a `Tag` only.  The pairs go into a `std::map`.
-/
import CortxS3.Basic
import CortxS3.Lib.SortedMap
import CortxS3.Lib.Until

namespace CortxS3

/-- A node of an XML tree. -/
inductive XmlNode where
  | element (name : Bytes) (children : List XmlNode)
  | text (content : Bytes)
  | comment (content : Bytes)

namespace XmlNode

def name : XmlNode → Bytes
  | element name _ => name
  | text _ => ascii "text"
  | comment _ => ascii "comment"

def xmlChildrenNode : XmlNode → List XmlNode
  | element _ children => children
  | text _ => []
  | comment _ => []

mutual

/-- The text in a node that stands in an element. -/
def innerText : XmlNode → Bytes
  | element _ children => innerTexts children
  | text content => content
  | comment _ => []

def innerTexts : List XmlNode → Bytes
  | [] => []
  | node :: rest => innerText node ++ innerTexts rest

end

/-- `xmlNodeGetContent`. -/
def xmlNodeGetContent : XmlNode → Bytes
  | element _ children => innerTexts children
  | text content => content
  | comment content => content

/-- The nodes that are elements. -/
def elements (nodes : List XmlNode) : List (Bytes × List XmlNode) :=
  nodes.filterMap fun
    | element name children => some (name, children)
    | _ => none

/-- `xmlChildElementCount`. -/
def xmlChildElementCount (node : XmlNode) : Nat := (elements node.xmlChildrenNode).length

end XmlNode

open XmlNode

structure S3PutTagBody where
  bucketTags : List (Bytes × Bytes) := []
  isValid : Bool := false
deriving DecidableEq

namespace S3PutTagBody

open Until (Outcome)

/-- The loop of `read_key_value_node`: the last key and the last value, if there is nothing else. -/
def readKeyValues : List XmlNode → Bytes → Bytes → Option (Bytes × Bytes)
  | [], tagKey, tagValue => some (tagKey, tagValue)
  | keyValueNode :: next, tagKey, tagValue =>
    if keyValueNode.name = ascii "Key" then
      readKeyValues next keyValueNode.xmlNodeGetContent tagValue
    else if keyValueNode.name = ascii "Value" then
      readKeyValues next tagKey keyValueNode.xmlNodeGetContent
    else none

def readKeyValueNode (tagNode : XmlNode) (bucketTags : List (Bytes × Bytes)) : S3PutTagBody :=
  match readKeyValues tagNode.xmlChildrenNode [] [] with
  | none => { bucketTags := bucketTags, isValid := false }
  | some (tagKey, tagValue) =>
    if tagKey = [] ∨ tagValue = [] then { bucketTags := bucketTags, isValid := false }
    else if (SortedMap.get tagKey bucketTags).isSome then
      { bucketTags := bucketTags, isValid := false }
    else { bucketTags := SortedMap.set tagKey tagValue bucketTags, isValid := true }

/-- Where `tag_node` points, and what is read so far. -/
structure Walk where
  tagNode : List XmlNode
  body : S3PutTagBody

/-- Once round the loop over the children of the tag set. -/
def walkStep (s : Walk) : Outcome Walk S3PutTagBody :=
  match s.tagNode with
  | [] => .done s.body
  | tagNode :: next =>
    if tagNode.name = ascii "Tag" then
      if tagNode.xmlChildElementCount ≠ 2 then .done { s.body with isValid := false }
      else
        let body := readKeyValueNode tagNode s.body.bucketTags
        if body.isValid then .next ⟨next, body⟩ else .done body
    else .next s

/-- How `parse_and_validate` begins.  What cannot be parsed has no root. -/
def parseStart : Option XmlNode → Outcome Walk S3PutTagBody
  | none => .done {}
  | some taggingNode =>
    if taggingNode.name ≠ ascii "Tagging" then .done {}
    else
      match taggingNode.xmlChildrenNode with
      | [] => .done {}
      | tagsetNode :: _ =>
        .next ⟨tagsetNode.xmlChildrenNode, { isValid := tagsetNode.name = ascii "TagSet" }⟩

/-- `parse_and_validate` comes to an end and leaves `body`. -/
def parseAndValidate (root : Option XmlNode) (body : S3PutTagBody) : Prop :=
  Outcome.Ends walkStep (parseStart root) body

/-! ### What is to be accepted -/

/-- The children of a tag that names this pair: one key and one value among its elements, in either
order. -/
def NamesPair (children : List XmlNode) (pair : Bytes × Bytes) : Prop :=
  ∃ key value, (elements children = [(ascii "Key", key), (ascii "Value", value)] ∨
      elements children = [(ascii "Value", value), (ascii "Key", key)]) ∧
    pair = (innerTexts key, innerTexts value) ∧ pair.1 ≠ [] ∧ pair.2 ≠ []

/-- The root is `Tagging` and has a `TagSet` whose elements are tags that name these pairs, no key
twice. -/
def Describes (root : XmlNode) (pairs : List (Bytes × Bytes)) : Prop :=
  root.name = ascii "Tagging" ∧
    ∃ children, (ascii "TagSet", children) ∈ elements root.xmlChildrenNode ∧
      List.Forall₂ (fun e pair => e.1 = ascii "Tag" ∧ NamesPair e.2 pair) (elements children) pairs ∧
      (pairs.map (·.1)).Nodup

/-- The body is read to an end; it is accepted exactly if the tree describes some pairs, and then it
holds these. -/
def ParsesExactly (root : XmlNode) : Prop :=
  ∃ body, parseAndValidate (some root) body ∧
    (body.isValid = true →
      ∃ pairs, Describes root pairs ∧ body.bucketTags = SortedMap.ofWrites pairs) ∧
    ((∃ pairs, Describes root pairs) → body.isValid = true)

end S3PutTagBody

end CortxS3
