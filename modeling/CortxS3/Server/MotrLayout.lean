/-
Which layout an object gets, `S3MotrLayoutMap`.

`yaml-cpp` reads the file.  What it makes of the list under `S3_OBJ_SIZE_MAPPING` is a parameter:
its nodes, each a map with what `as<int>` says of its values, or nothing where it throws.  The unit
sizes of the layouts are left out.
-/
import CortxS3.Basic
import CortxS3.Lib.SortedMap

namespace CortxS3

/-- A node of the list, in the order of its keys. -/
abbrev LayoutNode := List (String × Option Int)

structure S3MotrLayoutMap where
  objLayoutMap : List (Nat × Int) := []
  objSizeCap : Nat := 0
  layoutIdCap : Int := -1
  bestLayoutId : Int := 11
deriving DecidableEq

namespace S3MotrLayoutMap

/-! ### Loading -/

/-- `int` to `size_t`. -/
def toSize (value : Int) : Nat := (value % 2 ^ 64).toNat

/-- The local variables of the loop over a node. -/
structure NodeScan where
  objSize : Nat := 0
  layoutId : Int := 0
  capEntry : Bool := false
  bestLayoutIdEntry : Bool := false
deriving DecidableEq

/-- One entry of a node; an error is what the map has become when the file is given up. -/
def readEntry (m : S3MotrLayoutMap) (scan : NodeScan) :
    String × Option Int → Except S3MotrLayoutMap (S3MotrLayoutMap × NodeScan)
  | (key, value) =>
    if key = "USE_LAYOUT_ID" then
      value.elim (.error m) fun value => .ok (m, { scan with layoutId := value })
    else if key = "UP_TO_OBJ_SIZE" then
      value.elim (.error m) fun value => .ok (m, { scan with objSize := toSize value })
    else if key = "ABOVE_OBJ_SIZE" then
      value.elim (.error m) fun value =>
        .ok (m, { scan with objSize := toSize value, capEntry := true })
    else if key = "BEST_LAYOUT_ID" then
      value.elim (.error m) fun value =>
        .ok ({ m with bestLayoutId := value }, { scan with bestLayoutIdEntry := true })
    else .error m

def readEntries : S3MotrLayoutMap → NodeScan → LayoutNode →
    Except S3MotrLayoutMap (S3MotrLayoutMap × NodeScan)
  | m, scan, [] => .ok (m, scan)
  | m, scan, entry :: rest => do
    let (m, scan) ← readEntry m scan entry
    readEntries m scan rest

def readNode (m : S3MotrLayoutMap) (node : LayoutNode) : Except S3MotrLayoutMap S3MotrLayoutMap :=
  if node.length = 2 then do
    let (m, scan) ← readEntries m {} node
    if scan.capEntry then
      .ok { m with objSizeCap := scan.objSize, layoutIdCap := scan.layoutId }
    else if !scan.bestLayoutIdEntry then
      .ok { m with objLayoutMap := SortedMap.set scan.objSize scan.layoutId m.objLayoutMap }
    else .ok m
  else .error m

def readNodes : S3MotrLayoutMap → List LayoutNode → Except S3MotrLayoutMap S3MotrLayoutMap
  | m, [] => .ok m
  | m, node :: rest => do
    let m ← readNode m node
    readNodes m rest

/-- `load_layout_recommendations` of a file, where there is a list to read. -/
def loadLayoutRecommendations (file : Option (List LayoutNode)) (m : S3MotrLayoutMap) :
    Except S3MotrLayoutMap S3MotrLayoutMap :=
  match file with
  | none => .error m
  | some nodes => do
    let m ← readNodes m nodes
    if m.objSizeCap = 0 || m.layoutIdCap = -1 then .error m else .ok m

/-! ### Choosing -/

/-- Nothing where `begin()` of an empty map is read. -/
def getLayoutForObjectSize (m : S3MotrLayoutMap) (objSize : Nat) : Option Int :=
  match m.objLayoutMap with
  | [] => none
  | first :: _ =>
    if objSize = 0 || objSize ≤ first.1 then some first.2
    else if m.objSizeCap ≤ objSize then some m.layoutIdCap
    else
      match m.objLayoutMap.reverse.find? fun item => item.1 ≤ objSize with
      | some item => some item.2
      | none => some first.2

end S3MotrLayoutMap

end CortxS3
