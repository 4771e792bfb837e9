import Mathlib.Tactic

/-!
# Regular expressions matched by backtracking

Expressions with capturing groups, greedy repetition of a class of characters and
assertions about the place in the text. A matcher of this kind tries its ways through an
expression one after the other, so an expression is taken for the list of its ways, the
one tried first at the head.

* `Regex.ways` are the ways from a place in a text, and `Regex.first` is the one taken;
* `Regex.fullMatch` accepts the first way that leads to the end of the text;
* `Regex.find` looks for the first place from which there is a way.
-/

namespace PublicEndorsement

inductive Regex (α : Type) where
  | empty
  | char (p : α → Bool)
  /-- Something holds of what is before, nearest first, and of what is to come. -/
  | look (p : List α → List α → Bool)
  | seq (r s : Regex α)
  | optional (r : Regex α)
  | repeated (p : α → Bool)
  | group (k : ℕ) (r : Regex α)

namespace Regex

variable {α : Type}

/-- A place in a text, with the groups captured on the way to it. -/
structure Cursor (α : Type) where
  before : List α
  after : List α
  groups : ℕ → Option (List α)

namespace Cursor

def start (s : List α) : Cursor α := ⟨[], s, fun _ => none⟩

def skip (c : Cursor α) (w rest : List α) : Cursor α := ⟨w.reverse ++ c.before, rest, c.groups⟩

def capture (c : Cursor α) (k : ℕ) (w : List α) : Cursor α :=
  { c with groups := Function.update c.groups k (some w) }

def upTo (c c' : Cursor α) : List α := c.after.take (c.after.length - c'.after.length)

@[simp] theorem skip_after (c : Cursor α) (w rest : List α) : (c.skip w rest).after = rest := rfl

@[simp] theorem skip_groups (c : Cursor α) (w rest : List α) :
    (c.skip w rest).groups = c.groups := rfl

@[simp] theorem skip_nil (c : Cursor α) : c.skip [] c.after = c := rfl

@[simp] theorem skip_skip (c : Cursor α) (v w after rest : List α) :
    (c.skip v after).skip w rest = c.skip (v ++ w) rest := by
  simp [skip]

@[simp] theorem capture_after (c : Cursor α) (k : ℕ) (w : List α) :
    (c.capture k w).after = c.after := rfl

@[simp] theorem capture_groups (c : Cursor α) (k : ℕ) (w : List α) :
    (c.capture k w).groups k = some w := Function.update_self k _ _

theorem upTo_skip {c : Cursor α} {w rest : List α} (h : c.after = w ++ rest) :
    c.upTo (c.skip w rest) = w := by
  simp [upTo, h]

end Cursor

open Cursor

/-- The places within a run of characters of a class, the farthest first. -/
def run (p : α → Bool) (groups : ℕ → Option (List α)) : List α → List α → List (Cursor α)
  | before, [] => [⟨before, [], groups⟩]
  | before, a :: rest =>
    if p a then run p groups (a :: before) rest ++ [⟨before, a :: rest, groups⟩]
    else [⟨before, a :: rest, groups⟩]

def ways : Regex α → Cursor α → List (Cursor α)
  | .empty, c => [c]
  | .char p, c =>
    match c.after with
    | [] => []
    | a :: rest => if p a then [c.skip [a] rest] else []
  | .look p, c => if p c.before c.after then [c] else []
  | .seq r s, c => (r.ways c).flatMap s.ways
  | .optional r, c => r.ways c ++ [c]
  | .repeated p, c => run p c.groups c.before c.after
  | .group k r, c => (r.ways c).map (fun c' => c'.capture k (c.upTo c'))

def first (r : Regex α) (c : Cursor α) : Option (Cursor α) := (r.ways c).head?

def fullMatch (r : Regex α) (s : List α) : Option (Cursor α) :=
  (r.ways (start s)).find? (fun c => c.after.isEmpty)

def findFrom (r : Regex α) (before : List α) : List α → Option (Cursor α)
  | [] => r.first ⟨before, [], fun _ => none⟩
  | a :: rest => (r.first ⟨before, a :: rest, fun _ => none⟩).or (r.findFrom (a :: before) rest)

/-- `Matcher.find`, the first time it is called. -/
def find (r : Regex α) (s : List α) : Option (Cursor α) := r.findFrom [] s

def plus (p : α → Bool) : Regex α := .seq (.char p) (.repeated p)

def literal [DecidableEq α] (w : List α) : Regex α :=
  w.foldr (fun a r => .seq (.char (fun b => b = a)) r) .empty

/-! ## Where the ways lead -/

theorem mem_run {p : α → Bool} {groups : ℕ → Option (List α)} {before after : List α}
    {c : Cursor α} :
    c ∈ run p groups before after ↔
      ∃ w rest, after = w ++ rest ∧ (∀ a ∈ w, p a = true) ∧ c = ⟨w.reverse ++ before, rest, groups⟩
      := by
  induction after generalizing before with
  | nil =>
    simp only [run, List.mem_singleton, List.nil_eq_append_iff]
    constructor
    · rintro rfl
      exact ⟨[], [], ⟨rfl, rfl⟩, by simp, rfl⟩
    · rintro ⟨w, rest, ⟨rfl, rfl⟩, -, rfl⟩
      rfl
  | cons a after ih =>
    by_cases ha : p a = true
    · simp only [run, if_pos ha, List.mem_append, List.mem_singleton, ih]
      constructor
      · rintro (⟨w, rest, rfl, hw, rfl⟩ | rfl)
        · exact ⟨a :: w, rest, rfl, by simpa [ha] using hw, by simp⟩
        · exact ⟨[], a :: after, rfl, by simp, rfl⟩
      · rintro ⟨w, rest, hsplit, hw, rfl⟩
        cases w with
        | nil => exact .inr (by rw [List.nil_append] at hsplit; rw [hsplit]; rfl)
        | cons b w =>
          obtain ⟨rfl, rfl⟩ := List.cons.inj hsplit
          exact .inl ⟨w, rest, rfl, fun x hx => hw x (List.mem_cons_of_mem _ hx), by simp⟩
    · simp only [run, if_neg ha, List.mem_singleton]
      constructor
      · rintro rfl
        exact ⟨[], a :: after, rfl, by simp, rfl⟩
      · rintro ⟨w, rest, hsplit, hw, rfl⟩
        cases w with
        | nil => rw [List.nil_append] at hsplit; rw [hsplit]; rfl
        | cons b w =>
          obtain ⟨rfl, -⟩ := List.cons.inj hsplit
          exact absurd (hw a List.mem_cons_self) ha

section Ways

variable {p : α → Bool} {r s : Regex α} {c c' : Cursor α}

@[simp] theorem mem_ways_empty : c' ∈ ways .empty c ↔ c' = c := by simp [ways]

theorem mem_ways_char :
    c' ∈ ways (.char p) c ↔ ∃ a rest, c.after = a :: rest ∧ p a = true ∧ c' = c.skip [a] rest := by
  cases hafter : c.after with
  | nil => simp [ways, hafter]
  | cons a rest =>
    by_cases ha : p a = true
    · simp [ways, hafter, ha]
    · simp [ways, hafter, ha]

@[simp] theorem mem_ways_look {p : List α → List α → Bool} :
    c' ∈ ways (.look p) c ↔ p c.before c.after = true ∧ c' = c := by
  by_cases h : p c.before c.after = true
  · simp [ways, h]
  · simp [ways, h]

@[simp] theorem mem_ways_seq : c' ∈ ways (.seq r s) c ↔ ∃ mid ∈ ways r c, c' ∈ ways s mid := by
  simp [ways]

@[simp] theorem mem_ways_optional : c' ∈ ways (.optional r) c ↔ c' ∈ ways r c ∨ c' = c := by
  simp [ways]

theorem mem_ways_repeated :
    c' ∈ ways (.repeated p) c ↔
      ∃ w rest, c.after = w ++ rest ∧ (∀ a ∈ w, p a = true) ∧ c' = c.skip w rest := mem_run

theorem mem_ways_group {k : ℕ} :
    c' ∈ ways (.group k r) c ↔ ∃ mid ∈ ways r c, c' = mid.capture k (c.upTo mid) := by
  simp [ways, eq_comm]

theorem mem_ways_plus :
    c' ∈ ways (plus p) c ↔
      ∃ w rest, c.after = w ++ rest ∧ w ≠ [] ∧ (∀ a ∈ w, p a = true) ∧ c' = c.skip w rest := by
  simp only [plus, mem_ways_seq, mem_ways_char, mem_ways_repeated]
  constructor
  · rintro ⟨_, ⟨a, rest, hafter, ha, rfl⟩, w, rest', hrest, hw, rfl⟩
    rw [skip_after] at hrest
    subst hrest
    exact ⟨a :: w, rest', hafter, by simp, by simpa [ha] using hw, by simp⟩
  · rintro ⟨w, rest, hafter, hne, hw, rfl⟩
    obtain ⟨a, w, rfl⟩ := List.exists_cons_of_ne_nil hne
    exact ⟨_, ⟨a, w ++ rest, hafter, hw a List.mem_cons_self, rfl⟩, w, rest, rfl,
      fun x hx => hw x (List.mem_cons_of_mem a hx), by simp⟩

theorem mem_ways_group_plus {k : ℕ} :
    c' ∈ ways (.group k (plus p)) c ↔
      ∃ w rest, c.after = w ++ rest ∧ w ≠ [] ∧ (∀ a ∈ w, p a = true) ∧
        c' = (c.skip w rest).capture k w := by
  simp only [mem_ways_group, mem_ways_plus]
  constructor
  · rintro ⟨_, ⟨w, rest, hafter, hne, hw, rfl⟩, rfl⟩
    exact ⟨w, rest, hafter, hne, hw, by rw [upTo_skip hafter]⟩
  · rintro ⟨w, rest, hafter, hne, hw, rfl⟩
    exact ⟨_, ⟨w, rest, hafter, hne, hw, rfl⟩, by rw [upTo_skip hafter]⟩

theorem mem_ways_literal [DecidableEq α] {w : List α} :
    c' ∈ ways (literal w) c ↔ ∃ rest, c.after = w ++ rest ∧ c' = c.skip w rest := by
  induction w generalizing c with
  | nil => simp [literal]
  | cons a w ih =>
    change c' ∈ ways (.seq (.char (fun b => b = a)) (literal w)) c ↔ _
    simp only [mem_ways_seq, mem_ways_char, ih]
    constructor
    · rintro ⟨_, ⟨b, after, hafter, hb, rfl⟩, rest, hrest, rfl⟩
      rw [skip_after] at hrest
      rw [of_decide_eq_true hb, hrest] at hafter
      exact ⟨rest, hafter, by simp [of_decide_eq_true hb]⟩
    · rintro ⟨rest, hafter, rfl⟩
      exact ⟨_, ⟨a, w ++ rest, hafter, by simp, rfl⟩, rest, rfl, by simp⟩

end Ways

/-! ## The way that is taken -/

theorem head?_run (p : α → Bool) (groups : ℕ → Option (List α)) (before after : List α) :
    (run p groups before after).head? =
      some ⟨(after.takeWhile p).reverse ++ before, after.dropWhile p, groups⟩ := by
  induction after generalizing before with
  | nil => rfl
  | cons a after ih =>
    by_cases ha : p a = true
    · simp [run, ha, ih]
    · simp [run, ha]

/-- The way taken through a sequence begins with some way through its first part and goes
on with the one taken through its second. -/
theorem first_seq {r s : Regex α} {c c' : Cursor α} (h : first (.seq r s) c = some c') :
    ∃ mid ∈ ways r c, first s mid = some c' := by
  rw [first, ways, List.head?_flatMap] at h
  exact List.exists_of_findSome?_eq_some h

theorem first_ne_none {r : Regex α} {c c' : Cursor α} (h : c' ∈ ways r c) : first r c ≠ none := by
  intro hnone
  rw [first, List.head?_eq_none_iff] at hnone
  simp [hnone] at h

/-- One or more characters of a class are taken as far as they go. -/
theorem first_plus {p : α → Bool} {c c' : Cursor α} (h : first (plus p) c = some c') :
    c.after.takeWhile p ≠ [] ∧ c' = c.skip (c.after.takeWhile p) (c.after.dropWhile p) := by
  obtain ⟨mid, hmid, hrest⟩ := first_seq h
  obtain ⟨a, rest, hafter, ha, rfl⟩ := mem_ways_char.mp hmid
  rw [first, ways, head?_run] at hrest
  cases hrest
  simp [hafter, ha, skip]

/-- A group of them captures all there are. -/
theorem first_group_plus {p : α → Bool} {k : ℕ} {c c' : Cursor α}
    (h : first (.group k (plus p)) c = some c') :
    c.after.takeWhile p ≠ [] ∧ c'.groups k = some (c.after.takeWhile p) := by
  rw [first, ways, List.head?_map, Option.map_eq_some_iff] at h
  obtain ⟨mid, hmid, rfl⟩ := h
  obtain ⟨hne, rfl⟩ := first_plus hmid
  have hsplit : c.after = c.after.takeWhile p ++ c.after.dropWhile p :=
    List.takeWhile_append_dropWhile.symm
  rw [capture_groups, upTo_skip hsplit]
  exact ⟨hne, rfl⟩

/-- The characters at the front that satisfy `p` end where one does not. -/
theorem takeWhile_append_boundary {p : α → Bool} {w rest : List α} (hw : ∀ a ∈ w, p a = true)
    (hrest : ∀ a, rest.head? = some a → p a = false) : (w ++ rest).takeWhile p = w := by
  rw [List.takeWhile_append_of_pos hw]
  cases rest with
  | nil => simp
  | cons a rest => simp [hrest a rfl]

theorem head?_dropWhile_eq_false {p : α → Bool} {s : List α} {a : α}
    (h : (s.dropWhile p).head? = some a) : p a = false := by
  have hnot := List.head?_dropWhile_not p s
  rw [h] at hnot
  simpa using hnot

/-- A run of a class that ends where the class does is cut off in one way only. -/
theorem run_unique {p : α → Bool} {w w' rest rest' : List α} (heq : w ++ rest = w' ++ rest')
    (hw : ∀ a ∈ w, p a = true) (hw' : ∀ a ∈ w', p a = true)
    (hrest : ∀ a, rest.head? = some a → p a = false)
    (hrest' : ∀ a, rest'.head? = some a → p a = false) : w = w' ∧ rest = rest' := by
  have hrun : w = w' := by
    rw [← takeWhile_append_boundary hw hrest, heq, takeWhile_append_boundary hw' hrest']
  subst hrun
  exact ⟨rfl, List.append_cancel_left heq⟩

/-! ## The place that is found -/

theorem findFrom_eq_none {r : Regex α} {before s : List α} (h : r.findFrom before s = none)
    {pre post : List α} (hsplit : s = pre ++ post) :
    r.first ⟨pre.reverse ++ before, post, fun _ => none⟩ = none := by
  induction s generalizing before pre with
  | nil =>
    obtain ⟨rfl, rfl⟩ := List.nil_eq_append_iff.mp hsplit
    exact h
  | cons a s ih =>
    rw [findFrom, Option.or_eq_none_iff] at h
    cases pre with
    | nil =>
      rw [List.nil_append] at hsplit
      subst hsplit
      exact h.1
    | cons b pre =>
      obtain ⟨rfl, hrest⟩ := List.cons.inj hsplit
      have hlater := ih h.2 hrest
      simpa using hlater

/-- A match is found at a place before which there is none. -/
theorem findFrom_eq_some {r : Regex α} {before s : List α} {c : Cursor α}
    (h : r.findFrom before s = some c) :
    ∃ pre post, s = pre ++ post ∧
      r.first ⟨pre.reverse ++ before, post, fun _ => none⟩ = some c ∧
      ∀ pre' post', s = pre' ++ post' → pre'.length < pre.length →
        r.first ⟨pre'.reverse ++ before, post', fun _ => none⟩ = none := by
  induction s generalizing before with
  | nil => exact ⟨[], [], rfl, h, fun _ _ _ hlt => absurd hlt (Nat.not_lt_zero _)⟩
  | cons a s ih =>
    rw [findFrom] at h
    cases hhere : r.first ⟨before, a :: s, fun _ => none⟩ with
    | some c' =>
      rw [hhere, Option.some_or] at h
      rw [← h]
      exact ⟨[], a :: s, rfl, hhere, fun _ _ _ hlt => absurd hlt (Nat.not_lt_zero _)⟩
    | none =>
      rw [hhere, Option.none_or] at h
      obtain ⟨pre, post, rfl, hfirst, hearlier⟩ := ih h
      refine ⟨a :: pre, post, rfl, by simpa using hfirst, ?_⟩
      intro pre' post' hsplit hlt
      cases pre' with
      | nil =>
        rw [List.nil_append] at hsplit
        rw [← hsplit]
        exact hhere
      | cons b pre' =>
        obtain ⟨rfl, hrest⟩ := List.cons.inj hsplit
        have hlater := hearlier pre' post' hrest (by simpa using hlt)
        simpa using hlater

end Regex
end PublicEndorsement
