/-
What the operations on the directory leave.

An operation on the users of an account changes the entry of this account and no other, and what
is read below the account afterwards is what was put there.
-/
import CortxS3.Auth.LDAPUtils

namespace CortxS3

open Option (some.injEq)
open List

namespace Directory

variable {d d' : Directory} {n : Bytes} {a : AccountEntry} {users : List UserEntry}

/-! ### One account -/

variable {f : AccountEntry → AccountEntry}

section

variable (hname : ∀ b, (f b).name = b.name)

include hname

/-- The accounts with another entry in the place of the first of a name. -/
theorem find?_replaceF {l : List AccountEntry}
    (h : l.find? (fun b => b.name = n) = some a) :
    (l.replaceF fun b => if b.name = n then some (f b) else none).find? (fun b => b.name = n) =
      some (f a) := by
  induction l with
  | nil => simp at h
  | cons b l ih =>
    by_cases hb : b.name = n
    · simp only [List.find?_cons, hb, decide_true, some.injEq] at h
      subst h
      simp [hb, hname]
    · simp only [List.find?_cons, hb, decide_false] at h
      simp [hb, ih h]

theorem findAccount_withAccount (h : d.findAccount n = some a) :
    (d.withAccount n f).findAccount n = some (f a) :=
  find?_replaceF hname h

theorem findAccount_withAccount_of_ne {m : Bytes} (hne : m ≠ n) :
    (d.withAccount n f).findAccount m = d.findAccount m := by
  have hfind : ∀ l : List AccountEntry,
      (l.replaceF fun b => if b.name = n then some (f b) else none).find? (fun b => b.name = m) =
        l.find? fun b => b.name = m := by
    intro l
    induction l with
    | nil => rfl
    | cons b l ih =>
      by_cases hb : b.name = n
      · have hbm : ¬ b.name = m := fun h => hne (h.symm.trans hb)
        simp [hb, hname, hne.symm]
      · simp only [hb, if_false, List.replaceF, List.find?_cons, ih]
  exact hfind d.accounts

theorem names_withAccount :
    (d.withAccount n f).accounts.map (·.name) = d.accounts.map (·.name) := by
  have hmap : ∀ l : List AccountEntry,
      (l.replaceF fun b => if b.name = n then some (f b) else none).map (·.name) =
        l.map (·.name) := by
    intro l
    induction l with
    | nil => rfl
    | cons b l ih =>
      by_cases hb : b.name = n
      · simp [hb, hname]
      · simp [hb, ih]
  exact hmap d.accounts

end

theorem findAccount_of_mem (hnames : (d.accounts.map (·.name)).Nodup) (h : a ∈ d.accounts) :
    d.findAccount a.name = some a := by
  have hfind : ∀ l : List AccountEntry, (l.map (·.name)).Nodup → a ∈ l →
      l.find? (fun b => b.name = a.name) = some a := by
    intro l hl ha
    induction l with
    | nil => simp at ha
    | cons b l ih =>
      rw [map_cons, nodup_cons] at hl
      rcases mem_cons.mp ha with rfl | ha
      · simp
      · have hne : ¬ b.name = a.name := fun h => hl.1 (h ▸ mem_map_of_mem ha)
        simpa [hne] using ih hl.2 ha
  exact hfind d.accounts hnames h

theorem usersOf_eq_some : d.usersOf n = some users ↔
    ∃ a, d.findAccount n = some a ∧ .users ∈ a.units ∧ a.users = users := by
  unfold usersOf
  cases h : d.findAccount n with
  | none => simp
  | some a =>
    by_cases hu : OrganizationalUnit.users ∈ a.units
    · simp [hu]
    · simp [hu]

theorem usersOf_withUsers (h : d.usersOf n = some users) (f : List UserEntry → List UserEntry) :
    (d.withUsers n f).usersOf n = some (f users) := by
  obtain ⟨a, ha, hunit, rfl⟩ := usersOf_eq_some.mp h
  exact usersOf_eq_some.mpr ⟨_, findAccount_withAccount (fun _ => rfl) ha, hunit, rfl⟩

theorem usersOf_withUsers_of_ne {m : Bytes} (hne : m ≠ n)
    (f : List UserEntry → List UserEntry) : (d.withUsers n f).usersOf m = d.usersOf m := by
  have h := findAccount_withAccount_of_ne (d := d) (n := n)
    (f := fun a => { a with users := f a.users }) (fun _ => rfl) hne
  unfold usersOf withUsers
  rw [h]

theorem map_withUsers {β : Type} (h : d.usersOf n = some users)
    (f : List UserEntry → List UserEntry) (g : AccountEntry → β) :
    (d.withUsers n f).accounts.map g = d.accounts.map g ↔
      ∃ a, d.findAccount n = some a ∧ g { a with users := f a.users } = g a := by
  obtain ⟨a, ha, -, rfl⟩ := usersOf_eq_some.mp h
  have hiff : ∀ l : List AccountEntry, l.find? (fun b => b.name = n) = some a →
      ((l.replaceF fun b => if b.name = n then some { b with users := f b.users } else none).map g =
        l.map g ↔ g { a with users := f a.users } = g a) := by
    intro l hl
    induction l with
    | nil => simp at hl
    | cons b l ih =>
      by_cases hb : b.name = n
      · simp only [List.find?_cons, hb, decide_true, some.injEq] at hl
        subst hl
        simp [hb]
      · simp only [List.find?_cons, hb, decide_false] at hl
        simp [hb, ih hl]
  refine (hiff d.accounts ha).trans ⟨fun hg => ⟨a, ha, hg⟩, ?_⟩
  rintro ⟨b, hb, hg⟩
  obtain rfl : a = b := Option.some.inj (ha.symm.trans hb)
  exact hg

/-! ### Accounts -/

theorem addAccount_eq_some : d.addAccount a = some d' ↔
    a.name ≠ [] ∧ (∀ b ∈ d.accounts, foldCase b.name ≠ foldCase a.name) ∧
      d.emailTaken a.email = false ∧ d' = { d with accounts := d.accounts ++ [a] } := by
  unfold addAccount
  by_cases h : a.name = [] ∨ (∃ b ∈ d.accounts, foldCase b.name = foldCase a.name) ∨
      d.emailTaken a.email = true
  · rw [if_pos (by simpa using h)]
    simp only [reduceCtorEq, false_iff]
    rintro ⟨hname, hfree, hemail, -⟩
    rcases h with h | ⟨b, hb, he⟩ | h
    · exact hname h
    · exact hfree b hb he
    · rw [hemail] at h
      cases h
  · rw [if_neg (by simpa using h), some.injEq]
    push Not at h
    obtain ⟨hname, hfree, hemail⟩ := h
    exact ⟨fun hd => ⟨hname, hfree, by simpa using hemail, hd.symm⟩, fun hd => hd.2.2.2.symm⟩

theorem addUnit_eq_some {unit : OrganizationalUnit} : d.addUnit n unit = some d' ↔
    ∃ a, d.findAccount n = some a ∧ unit ∉ a.units ∧
      d' = d.withAccount n fun a => { a with units := a.units ++ [unit] } := by
  unfold addUnit
  cases h : d.findAccount n with
  | none => simp
  | some a =>
    by_cases hu : unit ∈ a.units
    · simp [hu]
    · simp only [hu, if_false, some.injEq, exists_eq_left', not_false_eq_true, true_and]
      exact ⟨Eq.symm, Eq.symm⟩

/-! ### Users -/

theorem addUser_eq_some {u : UserEntry} : d.addUser n u = some d' ↔
    ∃ users, d.usersOf n = some users ∧ u.name ≠ [] ∧ (∀ v ∈ users, v.userId ≠ u.userId) ∧
      d' = d.withUsers n fun users => users ++ [u] := by
  unfold addUser
  cases h : d.usersOf n with
  | none => simp
  | some users =>
    by_cases hu : u.name = [] ∨ users.any (fun v => v.userId = u.userId) = true
    · simp only [hu, if_true, reduceCtorEq, some.injEq, exists_eq_left', false_iff]
      rintro ⟨hne, hfree, -⟩
      rcases hu with hu | hu
      · exact hne hu
      · obtain ⟨v, hv, he⟩ := any_eq_true.mp hu
        exact hfree v hv (by simpa using he)
    · simp only [hu, if_false, some.injEq, exists_eq_left']
      push Not at hu
      refine ⟨fun hd => ⟨hu.1, fun v hv he => hu.2 ?_, hd.symm⟩, fun hd => hd.2.2.symm⟩
      exact any_eq_true.mpr ⟨v, hv, by simpa using he⟩

theorem deleteUser_eq_some {userId : Bytes} : d.deleteUser n userId = some d' ↔
    ∃ users, d.usersOf n = some users ∧ (∃ u ∈ users, u.userId = userId) ∧
      d' = d.withUsers n fun users => users.filter fun u => u.userId ≠ userId := by
  unfold deleteUser
  cases h : d.usersOf n with
  | none => simp
  | some users =>
    by_cases hu : ∃ u ∈ users, u.userId = userId
    · have hany : users.any (fun u => u.userId = userId) = true := by simpa using hu
      simp only [hany, if_true, some.injEq, exists_eq_left']
      exact ⟨fun hd => ⟨hu, hd.symm⟩, fun hd => hd.2.symm⟩
    · have hany : ¬ users.any (fun u => u.userId = userId) = true := by simpa using hu
      simp only [hany, if_false, reduceCtorEq, some.injEq, exists_eq_left', false_iff]
      exact fun hd => hu hd.1

theorem modifyUser_eq_some {userId : Bytes} {c : UserChanges} :
    d.modifyUser n userId c = some d' ↔
      ∃ users u, d.usersOf n = some users ∧ users.find? (fun u => u.userId = userId) = some u ∧
        c.allowed u = true ∧ d' = d.withUsers n fun users =>
          users.map fun u => if u.userId = userId then c.apply u else u := by
  unfold modifyUser
  cases h : d.usersOf n with
  | none => simp
  | some users =>
    cases hu : users.find? fun u => u.userId = userId with
    | none => simp [hu]
    | some u =>
      by_cases hc : c.allowed u = true
      · simp only [hu, hc, if_true, some.injEq]
        refine ⟨fun hd => ⟨users, u, rfl, hu, hc, hd.symm⟩, ?_⟩
        rintro ⟨_, _, -, -, -, hd⟩
        exact hd.symm
      · simp [hu, hc]

/-! ### Access keys -/

theorem any_accessKey_iff {id : Bytes} :
    d.accessKeys.any (fun k => k.accessKeyId = id) = true ↔
      ∃ k ∈ d.accessKeys, k.accessKeyId = id := by
  simp

/-- What is done to the key with an id is refused when there is none. -/
theorem ite_accessKey_eq_some {id : Bytes} {r : Directory} :
    (if d.accessKeys.any (fun k => k.accessKeyId = id) then some r else none) = some d' ↔
      (∃ k ∈ d.accessKeys, k.accessKeyId = id) ∧ d' = r := by
  by_cases h : d.accessKeys.any (fun k => k.accessKeyId = id) = true
  · rw [if_pos h, some.injEq]
    exact ⟨fun hd => ⟨any_accessKey_iff.mp h, hd.symm⟩, fun hd => hd.2.symm⟩
  · rw [if_neg h]
    exact iff_of_false nofun fun hd => h (any_accessKey_iff.mpr hd.1)

theorem deleteAccessKey_eq_some {id : Bytes} : d.deleteAccessKey id = some d' ↔
    (∃ k ∈ d.accessKeys, k.accessKeyId = id) ∧
      d' = { d with accessKeys := d.accessKeys.filter fun k => k.accessKeyId ≠ id } :=
  ite_accessKey_eq_some

theorem modifyAccessKey_eq_some {id : Bytes} {active : Bool} :
    d.modifyAccessKey id active = some d' ↔
      (∃ k ∈ d.accessKeys, k.accessKeyId = id) ∧
        d' = { d with
          accessKeys := d.accessKeys.map fun k =>
            if k.accessKeyId = id then { k with active := active } else k } :=
  ite_accessKey_eq_some

theorem addAccessKey_eq_some {k : AccessKeyEntry} : d.addAccessKey k = some d' ↔
    (∀ l ∈ d.accessKeys, l.accessKeyId ≠ k.accessKeyId) ∧
      d' = { d with accessKeys := d.accessKeys ++ [k] } := by
  unfold addAccessKey
  by_cases h : d.accessKeys.any (fun l => l.accessKeyId = k.accessKeyId) = true
  · obtain ⟨l, hl, he⟩ := any_accessKey_iff.mp h
    rw [if_pos h]
    exact iff_of_false nofun fun hd => hd.1 l hl he
  · rw [if_neg h, some.injEq]
    exact ⟨fun hd => ⟨fun l hl he => h (any_accessKey_iff.mpr ⟨l, hl, he⟩), hd.symm⟩,
      fun hd => hd.2.symm⟩

end Directory

end CortxS3
