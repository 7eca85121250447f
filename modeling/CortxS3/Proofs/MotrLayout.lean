/-
The layout of an object that lies between two recommended sizes.

A file that is loaded leaves the map of its recommendations (`readNodes_eq`).  The choice is then
one of three: the first entry for what is no larger, the cap from its size on, and between them the
entry of the largest size that is no larger than the object (`choice_cases`).  That is the entry
below the object, and not the one up to whose size it is.
-/
import CortxS3.Server.MotrLayout

namespace CortxS3

open List

namespace S3MotrLayoutMap

open OrderedIndex

/-! ### Recommendations -/

/-- What a node says. -/
inductive Recommendation where
  | upTo (size : Nat) (id : Int)
  | above (size : Nat) (id : Int)
  /-- The size next to it is not used. -/
  | best (size id : Int)
deriving DecidableEq

namespace Recommendation

def node : Recommendation → LayoutNode
  | .upTo size id => [("UP_TO_OBJ_SIZE", some size), ("USE_LAYOUT_ID", some id)]
  | .above size id => [("ABOVE_OBJ_SIZE", some size), ("USE_LAYOUT_ID", some id)]
  | .best size id => [("UP_TO_OBJ_SIZE", some size), ("BEST_LAYOUT_ID", some id)]

/-- The sizes are what `as<int>` can give. -/
def InRange : Recommendation → Prop
  | .upTo size _ => size < 2 ^ 31
  | .above size _ => size < 2 ^ 31
  | .best _ _ => True

instance inRangeDecidable : ∀ r : Recommendation, Decidable r.InRange
  | .upTo size _ | .above size _ => inferInstanceAs (Decidable (size < 2 ^ 31))
  | .best _ _ => isTrue trivial

def upTo? : Recommendation → Option (Nat × Int)
  | .upTo size id => some (size, id)
  | _ => none

def above? : Recommendation → Option (Nat × Int)
  | .above size id => some (size, id)
  | _ => none

end Recommendation

/-- The keys of a node stand in either order. -/
def Says (node : LayoutNode) (r : Recommendation) : Prop := node.Perm r.node ∧ r.InRange

/-- A file that recommends a layout for each of some sizes, all below that of its cap. -/
structure Recommends (file : List LayoutNode) (upTo : List (Nat × Int)) (cap : Nat × Int) :
    Prop where
  nodes : ∃ recommendations, List.Forall₂ Says file recommendations ∧
    recommendations.filterMap Recommendation.upTo? = upTo ∧
      recommendations.filterMap Recommendation.above? = [cap]
  distinct : (upTo.map Prod.fst).Nodup
  below : ∀ entry ∈ upTo, entry.1 < cap.1

/-- Larger sizes have no smaller layout ids. -/
structure Increasing (upTo : List (Nat × Int)) (cap : Nat × Int) : Prop where
  entries : ∀ entry ∈ upTo, ∀ other ∈ upTo, entry.1 < other.1 → entry.2 ≤ other.2
  last : ∀ entry ∈ upTo, entry.2 ≤ cap.2

/-- The layout for a size is that of the smallest size that is at least as large, or of the cap, and
where the layout ids increase it is not smaller than that for a smaller size. -/
structure Suits (upTo : List (Nat × Int)) (cap : Nat × Int) (m : S3MotrLayoutMap) (size : Nat) :
    Prop where
  smallest : ∀ entry ∈ upTo, size ≤ entry.1 →
    (∀ other ∈ upTo, size ≤ other.1 → entry.1 ≤ other.1) →
      getLayoutForObjectSize m size = some entry.2
  fromCap : cap.1 ≤ size → getLayoutForObjectSize m size = some cap.2
  monotone : Increasing upTo cap → ∀ smaller, smaller ≤ size → ∃ a b,
    getLayoutForObjectSize m smaller = some a ∧ getLayoutForObjectSize m size = some b ∧ a ≤ b

/-- Some size is recommended, and the object does not lie strictly between two neighbouring ones
that have different layouts. -/
structure Settled (upTo : List (Nat × Int)) (size : Nat) : Prop where
  nonempty : upTo ≠ []
  between : ∀ lower ∈ upTo, ∀ upper ∈ upTo, lower.1 < size → size < upper.1 →
    (∀ other ∈ upTo, other.1 ≤ lower.1 ∨ upper.1 ≤ other.1) → lower.2 = upper.2

/-! ### What is loaded -/

/-- What a recommendation does to the map. -/
def follow (m : S3MotrLayoutMap) : Recommendation → S3MotrLayoutMap
  | .upTo size id => { m with objLayoutMap := SortedMap.set size id m.objLayoutMap }
  | .above size id => { m with objSizeCap := size, layoutIdCap := id }
  | .best _ id => { m with bestLayoutId := id }

theorem toSize_of_lt {size : Nat} (h : size < 2 ^ 31) : toSize size = size := by
  unfold toSize
  omega

theorem readNode_eq {node : LayoutNode} {r : Recommendation} (h : Says node r)
    (m : S3MotrLayoutMap) : readNode m node = .ok (follow m r) := by
  obtain ⟨hperm, hrange⟩ := h
  cases r with
  | upTo size id =>
    have hsize := toSize_of_lt hrange
    rcases perm_pair.mp hperm with rfl | rfl
    · show Except.ok { m with objLayoutMap := SortedMap.set (toSize size) id m.objLayoutMap } = _
      rw [hsize]
      rfl
    · show Except.ok { m with objLayoutMap := SortedMap.set (toSize size) id m.objLayoutMap } = _
      rw [hsize]
      rfl
  | above size id =>
    have hsize := toSize_of_lt hrange
    rcases perm_pair.mp hperm with rfl | rfl
    · show Except.ok { m with objSizeCap := toSize size, layoutIdCap := id } = _
      rw [hsize]
      rfl
    · show Except.ok { m with objSizeCap := toSize size, layoutIdCap := id } = _
      rw [hsize]
      rfl
  | best size id =>
    rcases perm_pair.mp hperm with rfl | rfl
    · rfl
    · rfl

theorem readNodes_eq {file : List LayoutNode} {recommendations : List Recommendation}
    (h : List.Forall₂ Says file recommendations) (m : S3MotrLayoutMap) :
    readNodes m file = .ok (recommendations.foldl follow m) := by
  induction h generalizing m with
  | nil => rfl
  | cons hnode _ ih =>
    rw [readNodes, readNode_eq hnode]
    exact ih _

theorem objLayoutMap_foldl (recommendations : List Recommendation) (m : S3MotrLayoutMap) :
    (recommendations.foldl follow m).objLayoutMap =
      (recommendations.filterMap Recommendation.upTo?).foldl
        (fun written entry => SortedMap.set entry.1 entry.2 written) m.objLayoutMap := by
  induction recommendations generalizing m with
  | nil => rfl
  | cons r rest ih =>
    rw [foldl_cons, ih]
    cases r <;> rfl

theorem cap_foldl (recommendations : List Recommendation) (m : S3MotrLayoutMap) :
    ((recommendations.foldl follow m).objSizeCap, (recommendations.foldl follow m).layoutIdCap) =
      (recommendations.filterMap Recommendation.above?).foldl (fun _ cap => cap)
        (m.objSizeCap, m.layoutIdCap) := by
  induction recommendations generalizing m with
  | nil => rfl
  | cons r rest ih =>
    rw [foldl_cons, ih]
    cases r <;> rfl

/-- The map holds what the file recommends. -/
structure Holds (upTo : List (Nat × Int)) (cap : Nat × Int) (m : S3MotrLayoutMap) : Prop where
  sorted : Sorted m.objLayoutMap
  mem : ∀ entry, entry ∈ m.objLayoutMap ↔ entry ∈ upTo
  sizeCap : m.objSizeCap = cap.1
  idCap : m.layoutIdCap = cap.2

theorem holds_of_load {file : List LayoutNode} {upTo : List (Nat × Int)} {cap : Nat × Int}
    {m : S3MotrLayoutMap} (hfile : Recommends file upTo cap)
    (hload : loadLayoutRecommendations (some file) {} = .ok m) : Holds upTo cap m := by
  obtain ⟨recommendations, hnodes, hupTo, habove⟩ := hfile.nodes
  have hm : m = recommendations.foldl follow {} := by
    unfold loadLayoutRecommendations at hload
    dsimp only at hload
    rw [readNodes_eq hnodes] at hload
    obtain ⟨loaded, hloaded, hload⟩ := bind_eq_ok.mp hload
    split_ifs at hload
    rw [← Except.ok.inj hload]
    exact (Except.ok.inj hloaded).symm
  have hwritten : m.objLayoutMap = SortedMap.ofWrites upTo := by
    rw [hm, objLayoutMap_foldl, hupTo]
    rfl
  have hcap : (m.objSizeCap, m.layoutIdCap) = cap := by
    rw [hm, cap_foldl, habove]
    rfl
  refine ⟨?_, ?_, congrArg Prod.fst hcap, congrArg Prod.snd hcap⟩
  · rw [hwritten]
    exact SortedMap.sorted_ofWrites upTo
  · intro entry
    rw [hwritten]
    exact (SortedMap.ofWrites_perm hfile.distinct).mem_iff

/-! ### What is chosen -/

theorem find_reverse {m : List (Nat × Int)} (hm : Sorted m) {size : Nat} {lower : Nat × Int}
    (h : (m.reverse.find? fun item => item.1 ≤ size) = some lower) :
    lower ∈ m ∧ lower.1 ≤ size ∧ ∀ entry ∈ m, entry.1 ≤ size → entry.1 ≤ lower.1 := by
  obtain ⟨hlower, larger, smaller, hsplit, hlarger⟩ := List.find?_eq_some_iff_append.mp h
  have hm' : m = smaller.reverse ++ lower :: larger.reverse := by
    rw [← reverse_reverse m, hsplit]
    simp
  refine ⟨?_, by simpa using hlower, ?_⟩
  · rw [hm']
    simp
  · intro entry hentry hsize
    rw [hm', mem_append, mem_cons] at hentry
    rw [hm', Sorted, pairwise_append] at hm
    rcases hentry with hentry | rfl | hentry
    · exact Nat.le_of_lt (hm.2.2 entry hentry lower mem_cons_self)
    · exact Nat.le_refl _
    · have := hlarger entry (mem_reverse.mp hentry)
      simp [hsize] at this

/-- The three ways to choose. -/
inductive Choice (upTo : List (Nat × Int)) (cap : Nat × Int) (size : Nat) : Option Int → Prop
  | first (entry : Nat × Int) (hentry : entry ∈ upTo) (hfirst : ∀ other ∈ upTo, entry.1 ≤ other.1)
      (hsize : size ≤ entry.1) : Choice upTo cap size (some entry.2)
  | cap (hsize : cap.1 ≤ size) : Choice upTo cap size (some cap.2)
  | below (entry : Nat × Int) (hentry : entry ∈ upTo) (hsize : entry.1 ≤ size)
      (hcap : size < cap.1) (hlast : ∀ other ∈ upTo, other.1 ≤ size → other.1 ≤ entry.1) :
      Choice upTo cap size (some entry.2)

variable {upTo : List (Nat × Int)} {cap : Nat × Int} {m : S3MotrLayoutMap}

theorem choice_cases (h : Holds upTo cap m) (hnonempty : upTo ≠ []) (size : Nat) :
    Choice upTo cap size (getLayoutForObjectSize m size) := by
  obtain ⟨entry, hentry⟩ := exists_mem_of_ne_nil upTo hnonempty
  have hmem := (h.mem entry).mpr hentry
  have hsorted := h.sorted
  unfold getLayoutForObjectSize
  cases hmap : m.objLayoutMap with
  | nil =>
    rw [hmap] at hmem
    exact absurd hmem not_mem_nil
  | cons first rest =>
    rw [hmap] at hsorted
    have hfirst : first ∈ upTo := (h.mem first).mp (by rw [hmap]; exact mem_cons_self)
    have hleast : ∀ other ∈ upTo, first.1 ≤ other.1 := by
      intro other hother
      have hin := (h.mem other).mpr hother
      rw [hmap, mem_cons] at hin
      rcases hin with rfl | hin
      · exact Nat.le_refl _
      · exact Nat.le_of_lt ((pairwise_cons.mp hsorted).1 other hin)
    dsimp only
    split_ifs with hsmall hcap
    · rw [Bool.or_eq_true, decide_eq_true_eq, decide_eq_true_eq] at hsmall
      exact .first first hfirst hleast (by omega)
    · rw [h.idCap]
      exact .cap (by rw [← h.sizeCap]; exact hcap)
    · rw [h.sizeCap, Nat.not_le] at hcap
      rw [Bool.or_eq_true, decide_eq_true_eq, decide_eq_true_eq, not_or, Nat.not_le] at hsmall
      cases hfind : (first :: rest).reverse.find? fun item => item.1 ≤ size with
      | none =>
        rw [List.find?_eq_none] at hfind
        have := hfind first (mem_reverse.mpr mem_cons_self)
        simp only [decide_eq_true_eq] at this
        omega
      | some lower =>
        obtain ⟨hlower, hsize, hlast⟩ := find_reverse hsorted hfind
        rw [← hmap] at hlower hlast
        exact .below lower ((h.mem lower).mp hlower) hsize hcap
          fun other hother hle => hlast other ((h.mem other).mpr hother) hle

theorem eq_of_size (hdistinct : (upTo.map Prod.fst).Nodup) {entry other : Nat × Int}
    (hentry : entry ∈ upTo) (hother : other ∈ upTo) (hsize : entry.1 = other.1) : entry = other :=
  inj_on_of_nodup_map hdistinct hentry hother hsize

/-- **The layout ids are monotone**, whichever entry is chosen. -/
theorem monotone_choice (hbelow : ∀ entry ∈ upTo, entry.1 < cap.1)
    (hdistinct : (upTo.map Prod.fst).Nodup) (hincreasing : Increasing upTo cap)
    {smaller size : Nat} (hle : smaller ≤ size) {chosen chosen' : Option Int}
    (hsmaller : Choice upTo cap smaller chosen) (hsize : Choice upTo cap size chosen') :
    ∃ a b, chosen = some a ∧ chosen' = some b ∧ a ≤ b := by
  have hentries : ∀ entry ∈ upTo, ∀ other ∈ upTo, entry.1 ≤ other.1 → entry.2 ≤ other.2 := by
    intro entry hentry other hother hsizes
    rcases Nat.lt_or_eq_of_le hsizes with hlt | heq
    · exact hincreasing.entries entry hentry other hother hlt
    · rw [eq_of_size hdistinct hentry hother heq]
  cases hsmaller with
  | first entry hentry hfirst _ =>
    cases hsize with
    | first other hother _ _ =>
      exact ⟨_, _, rfl, rfl, hentries _ hentry _ hother (hfirst _ hother)⟩
    | cap _ => exact ⟨_, _, rfl, rfl, hincreasing.last _ hentry⟩
    | below other hother _ _ _ =>
      exact ⟨_, _, rfl, rfl, hentries _ hentry _ hother (hfirst _ hother)⟩
  | cap hcap =>
    cases hsize with
    | first other hother _ hsmall =>
      have := hbelow other hother
      omega
    | cap _ => exact ⟨_, _, rfl, rfl, le_refl _⟩
    | below other hother _ hbelowCap _ => omega
  | below entry hentry hentrySize hcap hlast =>
    cases hsize with
    | first other hother hfirst hsmall =>
      -- both are then the first entry
      have hsame := hfirst entry hentry
      exact ⟨_, _, rfl, rfl, hentries _ hentry _ hother (by omega)⟩
    | cap _ => exact ⟨_, _, rfl, rfl, hincreasing.last _ hentry⟩
    | below other hother _ _ hlast' =>
      exact ⟨_, _, rfl, rfl, hentries _ hentry _ hother (hlast' _ hentry (by omega))⟩

/-- **The layout fits the size of an object** if and only if some size is recommended and the object
does not lie strictly between two neighbouring ones that have different layouts. -/
theorem suits_iff (file : List LayoutNode) (upTo : List (Nat × Int)) (cap : Nat × Int)
    (m : S3MotrLayoutMap) (hfile : Recommends file upTo cap)
    (hload : loadLayoutRecommendations (some file) {} = .ok m) (size : Nat) :
    Suits upTo cap m size ↔ Settled upTo size := by
  have hholds := holds_of_load hfile hload
  by_cases hnonempty : upTo = []
  · refine iff_of_false (fun h => ?_) fun h => h.nonempty hnonempty
    have hincreasing : Increasing upTo cap := by
      rw [hnonempty]
      exact ⟨fun _ h => absurd h not_mem_nil, fun _ h => absurd h not_mem_nil⟩
    obtain ⟨a, _, ha, -, -⟩ := h.monotone hincreasing size (Nat.le_refl _)
    have hmap : m.objLayoutMap = [] := by
      rw [eq_nil_iff_forall_not_mem]
      intro entry hentry
      rw [hholds.mem, hnonempty] at hentry
      exact not_mem_nil hentry
    unfold getLayoutForObjectSize at ha
    rw [hmap] at ha
    cases ha
  have hchoice := choice_cases hholds hnonempty
  have hcase := hchoice size
  constructor
  · intro h
    refine ⟨hnonempty, ?_⟩
    intro lower hlower upper hupper hlt hgt hbetween
    have hchosen : getLayoutForObjectSize m size = some upper.2 := by
      refine h.smallest upper hupper (Nat.le_of_lt hgt) fun other hother hle => ?_
      rcases hbetween other hother with hsmall | hlarge
      · omega
      · exact hlarge
    have hupperCap := hfile.below upper hupper
    generalize getLayoutForObjectSize m size = chosen at hcase hchosen
    cases hcase with
    | first entry hentry hfirst hsize =>
      have := hfirst lower hlower
      omega
    | cap hsize => omega
    | below entry hentry hsize _ hlast =>
      have hge := hlast lower hlower (Nat.le_of_lt hlt)
      have hle : entry.1 ≤ lower.1 := by
        rcases hbetween entry hentry with hsmall | hlarge
        · exact hsmall
        · omega
      obtain rfl := eq_of_size hfile.distinct hentry hlower (by omega)
      exact Option.some.inj hchosen
  · intro h
    refine ⟨?_, ?_, ?_⟩
    · intro entry hentry hle hleast
      have hentryCap := hfile.below entry hentry
      generalize getLayoutForObjectSize m size = chosen at hcase
      cases hcase with
      | first other hother hfirst hsize =>
        have hge := hleast other hother hsize
        have hle' := hfirst entry hentry
        rw [eq_of_size hfile.distinct hother hentry (by omega)]
      | cap hsize => omega
      | below lower hlower hsize _ hlast =>
        by_cases hexact : size = lower.1
        · have hge := hleast lower hlower (by omega)
          rw [eq_of_size hfile.distinct hlower hentry (by omega)]
        · have hlt : size < entry.1 := by
            by_contra hnot
            have := hlast entry hentry (by omega)
            omega
          refine congrArg some (h.between lower hlower entry hentry (by omega) hlt ?_)
          intro other hother
          by_cases hother' : other.1 ≤ size
          · exact .inl (hlast other hother hother')
          · exact .inr (hleast other hother (by omega))
    · intro hcap
      generalize getLayoutForObjectSize m size = chosen at hcase
      cases hcase with
      | first entry hentry _ hsize =>
        have := hfile.below entry hentry
        omega
      | cap _ => rfl
      | below _ _ _ hsize _ => omega
    · intro hincreasing smaller hle
      exact monotone_choice hfile.below hfile.distinct hincreasing hle (hchoice smaller) hcase

/-! ### The file that comes with the server -/

def objLayoutMapping : List LayoutNode := [
  [("UP_TO_OBJ_SIZE", some (-1)), ("BEST_LAYOUT_ID", some 9)],
  [("UP_TO_OBJ_SIZE", some 4096), ("USE_LAYOUT_ID", some 3)],
  [("UP_TO_OBJ_SIZE", some 8192), ("USE_LAYOUT_ID", some 3)],
  [("UP_TO_OBJ_SIZE", some 16384), ("USE_LAYOUT_ID", some 3)],
  [("UP_TO_OBJ_SIZE", some 32768), ("USE_LAYOUT_ID", some 4)],
  [("UP_TO_OBJ_SIZE", some 65536), ("USE_LAYOUT_ID", some 5)],
  [("UP_TO_OBJ_SIZE", some 131072), ("USE_LAYOUT_ID", some 6)],
  [("UP_TO_OBJ_SIZE", some 262144), ("USE_LAYOUT_ID", some 7)],
  [("UP_TO_OBJ_SIZE", some 524288), ("USE_LAYOUT_ID", some 8)],
  [("ABOVE_OBJ_SIZE", some 1048576), ("USE_LAYOUT_ID", some 9)]]

def recommendedSizes : List (Nat × Int) := [
  (4096, 3), (8192, 3), (16384, 3), (32768, 4), (65536, 5), (131072, 6), (262144, 7), (524288, 8)]

def objLayoutRecommendations : List Recommendation :=
  .best (-1) 9 :: (recommendedSizes.map fun entry => .upTo entry.1 entry.2) ++ [.above 1048576 9]

theorem objLayoutMapping_recommends :
    Recommends objLayoutMapping recommendedSizes (1048576, 9) where
  nodes := by
    refine ⟨objLayoutRecommendations, ?_, by decide, by decide⟩
    have hnodes : objLayoutMapping = objLayoutRecommendations.map Recommendation.node := by decide
    have hrange : ∀ r ∈ objLayoutRecommendations, r.InRange := by decide
    rw [hnodes, List.forall₂_map_left_iff, List.forall₂_same]
    exact fun r hr => ⟨List.Perm.refl _, hrange r hr⟩
  distinct := by decide
  below := by decide

def objLayouts : S3MotrLayoutMap where
  objLayoutMap := recommendedSizes
  objSizeCap := 1048576
  layoutIdCap := 9
  bestLayoutId := 9

theorem load_objLayoutMapping :
    loadLayoutRecommendations (some objLayoutMapping) {} = .ok objLayouts := by
  decide

/-- An object of 40000 bytes lies between two sizes, and gets the layout of the smaller one. -/
theorem not_suits_between :
    Recommends objLayoutMapping recommendedSizes (1048576, 9) ∧
      loadLayoutRecommendations (some objLayoutMapping) {} = .ok objLayouts ∧
      ¬Suits recommendedSizes (1048576, 9) objLayouts 40000 := by
  refine ⟨objLayoutMapping_recommends, load_objLayoutMapping, fun h => ?_⟩
  have hchosen := h.smallest (65536, 5) (by decide) (by decide) (by decide)
  revert hchosen
  decide

/-- One of 65536 bytes gets its own. -/
theorem suits_iff_exact : Suits recommendedSizes (1048576, 9) objLayouts 65536 :=
  (suits_iff objLayoutMapping recommendedSizes (1048576, 9) objLayouts objLayoutMapping_recommends
    load_objLayoutMapping 65536).mpr ⟨by decide, by decide⟩

end S3MotrLayoutMap

end CortxS3
