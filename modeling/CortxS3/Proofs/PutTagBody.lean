/-
Which tag documents are read as they should be.

The walk over the children of the tag set takes clean tags one after the other (`ends_clean_iff`):
tags whose children are one key and one value and nothing else, not even white space.  Where the
clean tags end it stops (`exists_stop`): at the end of the children, at a tag that is not clean or
repeats a key, which rejects the document, or at any other node, which it never leaves.

Only the first child of the root is looked at, and its name only when it has no children.  So a
document is read as it should be exactly if it is clean from its first child on, or it is rejected
and rightly so (`parsesExactly_iff`).
-/
import CortxS3.Server.PutTagBody

namespace CortxS3

open List XmlNode

namespace S3PutTagBody

open Until (Ends Outcome)

/-! ### Clean tags -/

/-- A tag whose children are one key and one value that name this pair, and nothing else. -/
def Clean (node : XmlNode) (pair : Bytes × Bytes) : Prop :=
  ∃ key value, (node = .element (ascii "Tag") [.element (ascii "Key") key, .element (ascii "Value") value] ∨
      node = .element (ascii "Tag") [.element (ascii "Value") value, .element (ascii "Key") key]) ∧
    pair = (innerTexts key, innerTexts value) ∧ pair.1 ≠ [] ∧ pair.2 ≠ []

/-- Clean tags that name these pairs. -/
def CleanTags (nodes : List XmlNode) (pairs : List (Bytes × Bytes)) : Prop :=
  List.Forall₂ Clean nodes pairs

theorem key_ne_value : ascii "Key" ≠ ascii "Value" := by decide

variable {node : XmlNode} {pair : Bytes × Bytes}

theorem Clean.name (h : Clean node pair) : node.name = ascii "Tag" := by
  obtain ⟨key, value, rfl | rfl, -⟩ := h
  · rfl
  · rfl

theorem Clean.namesPair (h : Clean node pair) :
    ∃ children, node = .element (ascii "Tag") children ∧ NamesPair children pair := by
  obtain ⟨key, value, rfl | rfl, hpair⟩ := h
  · exact ⟨_, rfl, key, value, Or.inl rfl, hpair⟩
  · exact ⟨_, rfl, key, value, Or.inr rfl, hpair⟩

variable {pairs : List (Bytes × Bytes)}

theorem CleanTags.elements {nodes : List XmlNode} (h : CleanTags nodes pairs) :
    List.Forall₂ (fun e pair => e.1 = ascii "Tag" ∧ NamesPair e.2 pair) (elements nodes) pairs := by
  induction h with
  | nil => exact List.Forall₂.nil
  | cons hclean _ ih =>
    obtain ⟨children, rfl, hnames⟩ := hclean.namesPair
    exact List.Forall₂.cons ⟨rfl, hnames⟩ ih

/-! ### One tag -/

theorem name_element {name : Bytes} (hname : node.name = name) (htext : name ≠ ascii "text")
    (hcomment : name ≠ ascii "comment") : ∃ children, node = .element name children := by
  cases node with
  | element n children => exact ⟨children, congrArg (XmlNode.element · children) hname⟩
  | text content => exact absurd hname.symm htext
  | comment content => exact absurd hname.symm hcomment

theorem readKeyValues_cons_eq_some {next : List XmlNode} {tagKey tagValue : Bytes}
    (h : readKeyValues (node :: next) tagKey tagValue = some pair) :
    (∃ key, node = .element (ascii "Key") key ∧
        readKeyValues next (innerTexts key) tagValue = some pair) ∨
      ∃ value, node = .element (ascii "Value") value ∧
        readKeyValues next tagKey (innerTexts value) = some pair := by
  unfold readKeyValues at h
  by_cases hkey : node.name = ascii "Key"
  · rw [if_pos hkey] at h
    obtain ⟨key, rfl⟩ := name_element hkey (by decide) (by decide)
    exact Or.inl ⟨key, rfl, h⟩
  · rw [if_neg hkey] at h
    by_cases hvalue : node.name = ascii "Value"
    · rw [if_pos hvalue] at h
      obtain ⟨value, rfl⟩ := name_element hvalue (by decide) (by decide)
      exact Or.inr ⟨value, rfl, h⟩
    · rw [if_neg hvalue] at h
      cases h

theorem readKeyValues_key (key next : List XmlNode) (tagKey tagValue : Bytes) :
    readKeyValues (.element (ascii "Key") key :: next) tagKey tagValue =
      readKeyValues next (innerTexts key) tagValue := if_pos rfl

theorem readKeyValues_value (value next : List XmlNode) (tagKey tagValue : Bytes) :
    readKeyValues (.element (ascii "Value") value :: next) tagKey tagValue =
      readKeyValues next tagKey (innerTexts value) :=
  (if_neg key_ne_value.symm).trans (if_pos rfl)

theorem length_of_readKeyValues : ∀ {nodes : List XmlNode} {tagKey tagValue : Bytes}
    {pair : Bytes × Bytes}, readKeyValues nodes tagKey tagValue = some pair →
      (elements nodes).length = nodes.length := by
  intro nodes
  induction nodes with
  | nil =>
    intro _ _ _ _
    rfl
  | cons node next ih =>
    intro tagKey tagValue pair h
    rcases readKeyValues_cons_eq_some h with ⟨key, rfl, hnext⟩ | ⟨value, rfl, hnext⟩
    · exact congrArg (· + 1) (ih hnext)
    · exact congrArg (· + 1) (ih hnext)

theorem clean_of_read {children : List XmlNode} (hread : readKeyValues children [] [] = some pair)
    (hcount : (elements children).length = 2) (hkey : pair.1 ≠ []) (hvalue : pair.2 ≠ []) :
    Clean (.element (ascii "Tag") children) pair := by
  rw [length_of_readKeyValues hread] at hcount
  match children, hcount with
  | [a, b], _ =>
    rcases readKeyValues_cons_eq_some hread with ⟨key, rfl, hread₁⟩ | ⟨value, rfl, hread₁⟩
    · rcases readKeyValues_cons_eq_some hread₁ with ⟨key', rfl, hread₂⟩ | ⟨value, rfl, hread₂⟩
      · obtain rfl := Option.some.inj hread₂
        exact absurd rfl hvalue
      · exact ⟨key, value, Or.inl rfl, (Option.some.inj hread₂).symm, hkey, hvalue⟩
    · rcases readKeyValues_cons_eq_some hread₁ with ⟨key, rfl, hread₂⟩ | ⟨value', rfl, hread₂⟩
      · exact ⟨key, value, Or.inr rfl, (Option.some.inj hread₂).symm, hkey, hvalue⟩
      · obtain rfl := Option.some.inj hread₂
        exact absurd rfl hkey

/-- **A tag is read exactly if it is clean and its key is new.** -/
theorem read_iff (hname : node.name = ascii "Tag") (bucketTags : List (Bytes × Bytes))
    (body : S3PutTagBody) :
    (node.xmlChildElementCount = 2 ∧ (readKeyValueNode node bucketTags).isValid = true ∧
        readKeyValueNode node bucketTags = body) ↔
      ∃ pair, Clean node pair ∧ SortedMap.get pair.1 bucketTags = none ∧
        body = { bucketTags := SortedMap.set pair.1 pair.2 bucketTags, isValid := true } := by
  obtain ⟨children, rfl⟩ := name_element hname (by decide) (by decide)
  constructor
  · rintro ⟨hcount, hvalid, rfl⟩
    unfold readKeyValueNode at hvalid ⊢
    cases hread : readKeyValues (XmlNode.element (ascii "Tag") children).xmlChildrenNode [] [] with
    | none =>
      rw [hread] at hvalid
      cases hvalid
    | some pair =>
      obtain ⟨tagKey, tagValue⟩ := pair
      rw [hread] at hvalid
      simp only at hvalid ⊢
      by_cases hempty : tagKey = [] ∨ tagValue = []
      · rw [if_pos hempty] at hvalid
        cases hvalid
      · rw [if_neg hempty] at hvalid ⊢
        by_cases htwice : (SortedMap.get tagKey bucketTags).isSome = true
        · rw [if_pos htwice] at hvalid
          cases hvalid
        · rw [if_neg htwice]
          rw [not_or] at hempty
          exact ⟨(tagKey, tagValue), clean_of_read hread hcount hempty.1 hempty.2,
            by simpa using htwice, rfl⟩
  · rintro ⟨pair, ⟨key, value, hnode, rfl, hkey, hvalue⟩, hnew, rfl⟩
    have hread : readKeyValues children [] [] = some (innerTexts key, innerTexts value) := by
      rcases hnode with hnode | hnode
      · obtain rfl := (XmlNode.element.inj hnode).2
        rw [readKeyValues_key, readKeyValues_value]
        rfl
      · obtain rfl := (XmlNode.element.inj hnode).2
        rw [readKeyValues_value, readKeyValues_key]
        rfl
    have hcount : (XmlNode.element (ascii "Tag") children).xmlChildElementCount = 2 := by
      rcases hnode with hnode | hnode
      · rw [hnode]
        rfl
      · rw [hnode]
        rfl
    have hbody : readKeyValueNode (.element (ascii "Tag") children) bucketTags =
        { bucketTags := SortedMap.set (innerTexts key) (innerTexts value) bucketTags
          isValid := true } := by
      unfold readKeyValueNode
      rw [show (XmlNode.element (ascii "Tag") children).xmlChildrenNode = children from rfl, hread]
      simp only
      rw [if_neg (not_or.mpr ⟨hkey, hvalue⟩), if_neg (by rw [hnew]; exact Bool.false_ne_true)]
    exact ⟨hcount, by rw [hbody], hbody⟩

/-! ### The walk -/

theorem walkStep_nil (body : S3PutTagBody) : walkStep ⟨[], body⟩ = .done body := rfl

theorem walkStep_stuck (hname : node.name ≠ ascii "Tag") (next : List XmlNode) (body : S3PutTagBody) :
    walkStep ⟨node :: next, body⟩ = .next ⟨node :: next, body⟩ :=
  if_neg hname

theorem get_ofWrites_eq_none {key : Bytes} :
    SortedMap.get key (SortedMap.ofWrites pairs) = none ↔ key ∉ pairs.map (·.1) := by
  constructor
  · intro hnone hmem
    cases hlast : SortedMap.lastWrite key pairs with
    | none =>
      obtain ⟨p, hp, hkey⟩ := mem_map.mp hmem
      exact (SortedMap.lastWrite_eq_none_iff key pairs).mp hlast p hp hkey
    | some value =>
      have hsome := (SortedMap.get_eq_some_iff (SortedMap.sorted_ofWrites pairs)).mpr
        (SortedMap.mem_ofWrites.mpr hlast)
      rw [hnone] at hsome
      cases hsome
  · intro hnot
    refine SortedMap.get_eq_none fun p hp hkey => ?_
    exact hnot (mem_map.mpr ⟨p, SortedMap.mem_of_mem_ofWrites hp, hkey⟩)

/-- **Clean tags are taken one after the other.** -/
theorem ends_clean_iff {front : List XmlNode} (hclean : CleanTags front pairs) :
    ∀ (before : List (Bytes × Bytes)) (isValid : Bool) (rest : List XmlNode) (w : S3PutTagBody),
      ((before ++ pairs).map (·.1)).Nodup →
      (Ends walkStep ⟨front ++ rest, ⟨SortedMap.ofWrites before, isValid⟩⟩ w ↔
        Ends walkStep ⟨rest, ⟨SortedMap.ofWrites (before ++ pairs),
          if front = [] then isValid else true⟩⟩ w) := by
  induction hclean with
  | nil =>
    intro before isValid rest w _
    rw [append_nil]
    exact Iff.rfl
  | @cons node pair front pairs hnode _ ih =>
    intro before isValid rest w hnodup
    have hsplit : before ++ pair :: pairs = (before ++ [pair]) ++ pairs := by
      rw [append_assoc]
      rfl
    have hnew : SortedMap.get pair.1 (SortedMap.ofWrites before) = none := by
      rw [get_ofWrites_eq_none]
      intro hmem
      rw [map_append, nodup_append] at hnodup
      exact hnodup.2.2 _ hmem _ (mem_cons_self ..) rfl
    have hset : SortedMap.set pair.1 pair.2 (SortedMap.ofWrites before) =
        SortedMap.ofWrites (before ++ [pair]) := (SortedMap.ofWrites_concat before _ _).symm
    obtain ⟨hcount, -, hbody⟩ := (read_iff hnode.name (SortedMap.ofWrites before) _).mpr
      ⟨pair, hnode, hnew, rfl⟩
    have hstep : walkStep ⟨node :: front ++ rest, ⟨SortedMap.ofWrites before, isValid⟩⟩ =
        .next ⟨front ++ rest, ⟨SortedMap.ofWrites (before ++ [pair]), true⟩⟩ := by
      show walkStep ⟨node :: (front ++ rest), _⟩ = _
      unfold walkStep
      simp only
      rw [if_pos hnode.name, if_neg (not_not.mpr hcount), hbody, hset, if_pos rfl]
    rw [Until.ends_iff_of_next hstep, ih _ _ rest w (by rw [← hsplit]; exact hnodup), ← hsplit,
      ite_self, if_neg (cons_ne_nil _ _)]

theorem exists_stop (nodes : List XmlNode) :
    ∀ before : List (Bytes × Bytes), (before.map (·.1)).Nodup →
      ∃ front pairs rest, nodes = front ++ rest ∧ CleanTags front pairs ∧
        ((before ++ pairs).map (·.1)).Nodup ∧
        ∀ node next, rest = node :: next →
          ¬ ∃ pair, Clean node pair ∧ pair.1 ∉ (before ++ pairs).map (·.1) := by
  induction nodes with
  | nil =>
    intro before hnodup
    exact ⟨[], [], [], rfl, List.Forall₂.nil, by rw [append_nil]; exact hnodup,
      fun _ _ h => nomatch h⟩
  | cons node nodes ih =>
    intro before hnodup
    by_cases hclean : ∃ pair, Clean node pair ∧ pair.1 ∉ before.map (·.1)
    · obtain ⟨pair, hpair, hnew⟩ := hclean
      have hnodup' : ((before ++ [pair]).map (·.1)).Nodup := by
        rw [map_append, nodup_append]
        refine ⟨hnodup, nodup_singleton _, ?_⟩
        intro key hkey key' hkey'
        rw [mem_singleton.mp hkey']
        intro heq
        rw [heq] at hkey
        exact hnew hkey
      obtain ⟨front, pairs, rest, rfl, hfront, hkeys, hstop⟩ := ih (before ++ [pair]) hnodup'
      have hsplit : before ++ [pair] ++ pairs = before ++ pair :: pairs := by
        rw [append_assoc]
        rfl
      rw [hsplit] at hkeys hstop
      exact ⟨node :: front, pair :: pairs, rest, rfl, List.Forall₂.cons hpair hfront, hkeys, hstop⟩
    · refine ⟨[], [], node :: nodes, rfl, List.Forall₂.nil, by rw [append_nil]; exact hnodup, ?_⟩
      intro node' next h
      obtain ⟨rfl, rfl⟩ := List.cons.inj h
      rw [append_nil]
      exact hclean

/-- At a tag that is not clean, or whose key is there already, the document is rejected. -/
theorem walkStep_rejected (hname : node.name = ascii "Tag") (next : List XmlNode) (isValid : Bool)
    (hbad : ¬ ∃ pair, Clean node pair ∧ pair.1 ∉ pairs.map (·.1)) :
    ∃ tags, walkStep ⟨node :: next, ⟨SortedMap.ofWrites pairs, isValid⟩⟩ = .done ⟨tags, false⟩ := by
  unfold walkStep
  simp only
  rw [if_pos hname]
  by_cases hcount : node.xmlChildElementCount = 2
  · rw [if_neg (not_not.mpr hcount)]
    by_cases hvalid : (readKeyValueNode node (SortedMap.ofWrites pairs)).isValid = true
    · obtain ⟨pair, hclean, hnew, -⟩ := (read_iff hname (SortedMap.ofWrites pairs) _).mp
        ⟨hcount, hvalid, rfl⟩
      exact absurd ⟨pair, hclean, get_ofWrites_eq_none.mp hnew⟩ hbad
    · rw [if_neg hvalid]
      obtain ⟨body, hbody⟩ : ∃ body, body = readKeyValueNode node (SortedMap.ofWrites pairs) :=
        ⟨_, rfl⟩
      rw [← hbody] at hvalid ⊢
      obtain ⟨tags, valid⟩ := body
      obtain rfl : valid = false := by simpa using hvalid
      exact ⟨tags, rfl⟩
  · rw [if_pos hcount]
    exact ⟨SortedMap.ofWrites pairs, rfl⟩

/-! ### Documents -/

/-- A tag that is not clean, or repeats a key, stands behind clean ones; or the first child of the
root is empty and no tag set, or there is none. -/
def Rejected (root : XmlNode) : Prop :=
  root.xmlChildrenNode = [] ∨ ∃ tagset rest, root.xmlChildrenNode = tagset :: rest ∧
    ((tagset.xmlChildrenNode = [] ∧ tagset.name ≠ ascii "TagSet") ∨
      ∃ front pairs node next, tagset.xmlChildrenNode = front ++ node :: next ∧
        CleanTags front pairs ∧ (pairs.map (·.1)).Nodup ∧ node.name = ascii "Tag" ∧
          ¬ ∃ pair, Clean node pair ∧ pair.1 ∉ pairs.map (·.1))

/-- The children of the first child are clean tags with different keys, and it is a tag set, or some
tag set has the same pairs. -/
def CleanFromTheFirst (root : XmlNode) : Prop :=
  ∃ tagset rest pairs, root.xmlChildrenNode = tagset :: rest ∧
    CleanTags tagset.xmlChildrenNode pairs ∧ (pairs.map (·.1)).Nodup ∧
      (tagset.name = ascii "TagSet" ∨ (tagset.xmlChildrenNode ≠ [] ∧
        ∃ pairs', Describes root pairs' ∧ SortedMap.ofWrites pairs = SortedMap.ofWrites pairs'))

section Documents

variable {root tagset : XmlNode} {rest : List XmlNode}

theorem parse_unique {document : Option XmlNode} {body body' : S3PutTagBody}
    (h : parseAndValidate document body) (h' : parseAndValidate document body') : body' = body :=
  Outcome.Ends.unique h h'

theorem parse_other (hname : root.name ≠ ascii "Tagging") : parseAndValidate (some root) {} := by
  unfold parseAndValidate parseStart
  simp only
  rw [if_pos hname]
  rfl

section

variable (hname : root.name = ascii "Tagging")

include hname

theorem parse_childless (hroot : root.xmlChildrenNode = []) :
    parseAndValidate (some root) {} := by
  unfold parseAndValidate parseStart
  simp only
  rw [if_neg (not_not.mpr hname), hroot]
  rfl

theorem parse_iff (hroot : root.xmlChildrenNode = tagset :: rest)
    (body : S3PutTagBody) :
    parseAndValidate (some root) body ↔ Ends walkStep ⟨tagset.xmlChildrenNode,
      ⟨SortedMap.ofWrites [], tagset.name = ascii "TagSet"⟩⟩ body := by
  unfold parseAndValidate parseStart
  simp only
  rw [if_neg (not_not.mpr hname), hroot]
  exact Iff.rfl

theorem parse_clean (hroot : root.xmlChildrenNode = tagset :: rest) {pairs : List (Bytes × Bytes)}
    (hclean : CleanTags tagset.xmlChildrenNode pairs) (hnodup : (pairs.map (·.1)).Nodup) :
    parseAndValidate (some root) ⟨SortedMap.ofWrites pairs,
      if tagset.xmlChildrenNode = [] then tagset.name = ascii "TagSet" else true⟩ := by
  rw [parse_iff hname hroot]
  have hends := (ends_clean_iff hclean [] (tagset.name = ascii "TagSet") []
    ⟨SortedMap.ofWrites pairs, if tagset.xmlChildrenNode = [] then
      decide (tagset.name = ascii "TagSet") else true⟩ hnodup).mpr
    ((Until.ends_iff_of_done (walkStep_nil _) _).mpr rfl)
  rw [append_nil] at hends
  exact hends

theorem parse_rejected (h : Rejected root) :
    ∃ tags, parseAndValidate (some root) ⟨tags, false⟩ := by
  rcases h with hroot | ⟨tagset, rest, hroot, ⟨hempty, htagset⟩ |
    ⟨front, pairs, node, next, hchildren, hclean, hnodup, hnode, hbad⟩⟩
  · exact ⟨[], parse_childless hname hroot⟩
  · refine ⟨SortedMap.ofWrites [], ?_⟩
    have hclean : CleanTags tagset.xmlChildrenNode [] := by
      rw [hempty]
      exact List.Forall₂.nil
    have hparse := parse_clean hname hroot hclean nodup_nil
    rw [if_pos hempty, decide_eq_false htagset] at hparse
    exact hparse
  · obtain ⟨tags, hstep⟩ := walkStep_rejected hnode next
      (if front = [] then tagset.name = ascii "TagSet" else true) hbad
    refine ⟨tags, ?_⟩
    rw [parse_iff hname hroot, hchildren, ends_clean_iff hclean [] _ _ _ hnodup]
    exact (Until.ends_iff_of_done hstep _).mpr rfl

theorem describes_of_clean
    (hroot : root.xmlChildrenNode = tagset :: rest) (htagset : tagset.name = ascii "TagSet")
    {pairs : List (Bytes × Bytes)} (hclean : CleanTags tagset.xmlChildrenNode pairs)
    (hnodup : (pairs.map (·.1)).Nodup) : Describes root pairs := by
  obtain ⟨children, rfl⟩ := name_element htagset (by decide) (by decide)
  refine ⟨hname, children, ?_, hclean.elements, hnodup⟩
  rw [hroot]
  exact mem_cons_self ..

end

/-- **A tag document is read to an end and exactly if and only if its root is not `Tagging`, or it
is rejected and describes no tags, or it is clean from its first child on.** -/
theorem parsesExactly_iff (root : XmlNode) :
    ParsesExactly root ↔ root.name ≠ ascii "Tagging" ∨
      (Rejected root ∧ ¬ ∃ pairs, Describes root pairs) ∨ CleanFromTheFirst root := by
  by_cases hname : root.name = ascii "Tagging"
  · constructor
    · rintro ⟨body, hparse, hvalid, haccepts⟩
      refine Or.inr ?_
      -- what is not accepted is not described
      have hnot : body.isValid = false → ¬ ∃ pairs, Describes root pairs := by
        intro hfalse hdescribes
        rw [haccepts hdescribes] at hfalse
        cases hfalse
      cases hroot : root.xmlChildrenNode with
      | nil =>
        refine Or.inl ⟨Or.inl hroot, ?_⟩
        rintro ⟨pairs, -, children, hmem, -⟩
        rw [hroot] at hmem
        cases hmem
      | cons tagset rest =>
        obtain ⟨front, pairs, stop, hchildren, hclean, hnodup, hstop⟩ :=
          exists_stop tagset.xmlChildrenNode [] nodup_nil
        cases stop with
        | nil =>
          rw [append_nil] at hchildren
          rw [← hchildren] at hclean
          have hbody := parse_unique (parse_clean hname hroot hclean hnodup) hparse
          by_cases htagset : tagset.name = ascii "TagSet"
          · exact Or.inr ⟨tagset, rest, pairs, hroot, hclean, hnodup, Or.inl htagset⟩
          · by_cases hempty : tagset.xmlChildrenNode = []
            · rw [if_pos hempty, decide_eq_false htagset] at hbody
              exact Or.inl ⟨Or.inr ⟨tagset, rest, hroot, Or.inl ⟨hempty, htagset⟩⟩,
                hnot (by rw [hbody])⟩
            · rw [if_neg hempty] at hbody
              obtain ⟨pairs', hdescribes, htags⟩ := hvalid (by rw [hbody])
              rw [hbody] at htags
              exact Or.inr ⟨tagset, rest, pairs, hroot, hclean, hnodup,
                Or.inr ⟨hempty, pairs', hdescribes, htags⟩⟩
        | cons node next =>
          have hbad := hstop node next rfl
          by_cases hnode : node.name = ascii "Tag"
          · have hrejected : Rejected root := Or.inr ⟨tagset, rest, hroot,
              Or.inr ⟨front, pairs, node, next, hchildren, hclean, hnodup, hnode, hbad⟩⟩
            obtain ⟨tags, htags⟩ := parse_rejected hname hrejected
            have hbody := parse_unique htags hparse
            exact Or.inl ⟨hrejected, hnot (by rw [hbody])⟩
          · rw [parse_iff hname hroot, hchildren,
              ends_clean_iff hclean [] _ _ _ hnodup] at hparse
            exact absurd hparse (Until.not_ends_of_stuck (walkStep_stuck hnode next _) body)
    · rintro (hother | ⟨hrejected, hnone⟩ | ⟨tagset, rest, pairs, hroot, hclean, hnodup, hpairs⟩)
      · exact absurd hname hother
      · obtain ⟨tags, hparse⟩ := parse_rejected hname hrejected
        exact ⟨_, hparse, fun h => (nomatch h), fun h => absurd h hnone⟩
      · refine ⟨_, parse_clean hname hroot hclean hnodup, ?_, ?_⟩
        · intro _
          rcases hpairs with htagset | ⟨-, hpairs⟩
          · exact ⟨pairs, describes_of_clean hname hroot htagset hclean hnodup, rfl⟩
          · exact hpairs
        · intro _
          rcases hpairs with htagset | ⟨hempty, -⟩
          · rw [decide_eq_true htagset]
            exact ite_self true
          · exact if_neg hempty
  · constructor
    · intro _
      exact Or.inl hname
    · intro _
      exact ⟨{}, parse_other hname, fun h => (nomatch h),
        fun ⟨pairs, hdescribes⟩ => absurd hdescribes.1 hname⟩

end Documents

/-- An empty tag set with a blank in it. -/
def blankTagSet : XmlNode :=
  .element (ascii "Tagging") [.element (ascii "TagSet") [.text (ascii " ")]]

/-- **A blank in the tag set is never left.** -/
theorem not_parsesExactly_blank :
    Describes blankTagSet [] ∧ (∀ body, ¬ parseAndValidate (some blankTagSet) body) ∧
      ¬ ∀ root, ParsesExactly root := by
  have hnever : ∀ body, ¬ parseAndValidate (some blankTagSet) body := by
    intro body hparse
    have hroot : blankTagSet.xmlChildrenNode =
        [.element (ascii "TagSet") [.text (ascii " ")]] := rfl
    rw [parse_iff rfl hroot] at hparse
    exact Until.not_ends_of_stuck (walkStep_stuck (by decide) [] _) body hparse
  refine ⟨⟨rfl, _, mem_cons_self .., List.Forall₂.nil, nodup_nil⟩, hnever, ?_⟩
  intro h
  obtain ⟨body, hparse, -⟩ := h blankTagSet
  exact hnever body hparse

end S3PutTagBody

end CortxS3
