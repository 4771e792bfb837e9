import Mathlib.Tactic

/-!
# Descriptors and the files behind them

A descriptor is a number that refers to an open file, and several may refer to the same
one. Files are numbered in the order in which they are opened; a number is not used again.
A watch is on a file, under the descriptor that was given for it, and means nothing any
more once no descriptor refers to the file.
-/

namespace PublicEndorsement

structure Watch (W : Type) where
  fd : ℕ
  file : ℕ
  interest : W

structure DescriptorTable (F W : Type) where
  fds : ℕ → Option ℕ
  files : ℕ → F
  next : ℕ
  watches : List (Watch W)
  fds_lt : ∀ fd i, fds fd = some i → i < next

namespace DescriptorTable

variable {F W : Type}

def lookup (t : DescriptorTable F W) (fd : ℕ) : Option F := (t.fds fd).map t.files

def install (t : DescriptorTable F W) (fd : ℕ) (f : F) : DescriptorTable F W where
  fds := Function.update t.fds fd (some t.next)
  files := Function.update t.files t.next f
  next := t.next + 1
  watches := t.watches
  fds_lt j i h := by
    by_cases hj : j = fd
    · subst hj
      rw [Function.update_self] at h
      exact Option.some_injective _ h ▸ Nat.lt_succ_self _
    · rw [Function.update_of_ne hj] at h
      exact (t.fds_lt j i h).trans (Nat.lt_succ_self _)

def dup2 (t : DescriptorTable F W) (old fd : ℕ) : DescriptorTable F W where
  fds := Function.update t.fds fd (t.fds old)
  files := t.files
  next := t.next
  watches := t.watches
  fds_lt j i h := by
    by_cases hj : j = fd
    · subst hj
      rw [Function.update_self] at h
      exact t.fds_lt old i h
    · rw [Function.update_of_ne hj] at h
      exact t.fds_lt j i h

def close (t : DescriptorTable F W) (fd : ℕ) : DescriptorTable F W where
  fds := Function.update t.fds fd none
  files := t.files
  next := t.next
  watches := t.watches
  fds_lt j i h := by
    by_cases hj : j = fd
    · subst hj
      rw [Function.update_self] at h
      cases h
    · rw [Function.update_of_ne hj] at h
      exact t.fds_lt j i h

def modify (t : DescriptorTable F W) (fd : ℕ) (change : F → F) : DescriptorTable F W :=
  { t with files := fun i => if t.fds fd = some i then change (t.files i) else t.files i }

def setWatches (t : DescriptorTable F W) (watches : List (Watch W)) : DescriptorTable F W :=
  { t with watches := watches }

section Fields

variable (t : DescriptorTable F W) (fd old j : ℕ) (f : F) (change : F → F) (ws : List (Watch W))

@[simp] theorem install_fds : (t.install fd f).fds = Function.update t.fds fd (some t.next) := rfl
@[simp] theorem dup2_fds : (t.dup2 old fd).fds = Function.update t.fds fd (t.fds old) := rfl
@[simp] theorem dup2_files : (t.dup2 old fd).files = t.files := rfl
@[simp] theorem close_fds : (t.close fd).fds = Function.update t.fds fd none := rfl
@[simp] theorem modify_fds : (t.modify fd change).fds = t.fds := rfl
theorem modify_files (i : ℕ) : (t.modify fd change).files i =
    if t.fds fd = some i then change (t.files i) else t.files i := rfl
@[simp] theorem setWatches_fds : (t.setWatches ws).fds = t.fds := rfl

end Fields

theorem ne_of_isOpen {t : DescriptorTable F W} {fd v : ℕ} (hfd : (t.fds fd).isSome = true)
    (hv : t.fds v = none) : fd ≠ v := by
  rintro rfl
  rw [hv] at hfd
  cases hfd

section Lookup

variable {t : DescriptorTable F W} {fd v : ℕ}

theorem isOpen_of_lookup {f : F} (h : t.lookup fd = some f) : (t.fds fd).isSome = true := by
  obtain ⟨i, hi, -⟩ := Option.map_eq_some_iff.mp h
  rw [hi, Option.isSome_some]

theorem lookup_congr {t' : DescriptorTable F W} (hfds : t'.fds fd = t.fds fd)
    (hfiles : ∀ i, t.fds fd = some i → t'.files i = t.files i) : t'.lookup fd = t.lookup fd := by
  unfold lookup
  rw [hfds]
  cases hi : t.fds fd with
  | none => rfl
  | some i => exact congrArg some (hfiles i hi)

theorem lookup_modify (t : DescriptorTable F W) (fd : ℕ) (change : F → F) :
    (t.modify fd change).lookup fd = (t.lookup fd).map change := by
  unfold lookup
  cases h : t.fds fd with
  | none => simp [h]
  | some i => simp [modify, h]

theorem lookup_install (t : DescriptorTable F W) (v : ℕ) (f : F) :
    (t.install v f).lookup v = some f := by
  unfold lookup
  rw [install_fds, Function.update_self]
  exact congrArg some (Function.update_self _ _ _)

theorem lookup_install_of_ne (hne : fd ≠ v) (f : F) :
    (t.install v f).lookup fd = t.lookup fd :=
  lookup_congr (Function.update_of_ne hne _ _)
    (fun i hi => Function.update_of_ne (t.fds_lt fd i hi).ne _ _)

theorem lookup_dup2 (t : DescriptorTable F W) (old fd : ℕ) :
    (t.dup2 old fd).lookup fd = t.lookup old := by
  unfold lookup
  rw [dup2_fds, Function.update_self, dup2_files]

theorem lookup_close_of_ne (hne : fd ≠ v) : (t.close v).lookup fd = t.lookup fd :=
  lookup_congr (Function.update_of_ne hne _ _) (fun _ _ => rfl)

end Lookup

/-! ## Working on one descriptor -/

/-- The file behind `fd` is changed as `R` says, and nothing else is changed. -/
structure Kept (R : F → F → Prop) (fd : ℕ) (t t' : DescriptorTable F W) : Prop where
  fds : t'.fds = t.fds
  files : ∀ i < t.next, t.fds fd ≠ some i → t'.files i = t.files i
  file : ∀ f, t.lookup fd = some f → ∃ f', t'.lookup fd = some f' ∧ R f f'
  watches : t'.watches = t.watches
  next_le : t.next ≤ t'.next

/-- A new file that is related by `R` to the one behind `fd` has taken its place. -/
structure Replaced (R : F → F → Prop) (fd : ℕ) (t t' : DescriptorTable F W) : Prop where
  others : ∀ j ≠ fd, t'.fds j = t.fds j
  fresh : ∃ i, t'.fds fd = some i ∧ t.next ≤ i
  files : ∀ i < t.next, t'.files i = t.files i
  file : ∀ f, t.lookup fd = some f → ∃ f', t'.lookup fd = some f' ∧ R f f'
  watches : t'.watches = t.watches
  next_le : t.next ≤ t'.next

structure Added (fd : ℕ) (f : F) (t t' : DescriptorTable F W) : Prop where
  unused : t.fds fd = none
  fds : t'.fds = Function.update t.fds fd (some t.next)
  files : ∀ i < t.next, t'.files i = t.files i
  file : t'.lookup fd = some f
  watches : t'.watches = t.watches
  next_le : t.next ≤ t'.next

section Work

variable {R S T : F → F → Prop} {fd v : ℕ} {t t' t'' : DescriptorTable F W}

theorem Kept.refl (t : DescriptorTable F W) (fd : ℕ) : Kept Eq fd t t :=
  ⟨rfl, fun _ _ _ => rfl, fun f hf => ⟨f, hf, rfl⟩, rfl, le_rfl⟩

theorem Kept.mono (h : Kept R fd t t')
    (hR : ∀ f f', t.lookup fd = some f → R f f' → S f f') : Kept S fd t t' := by
  refine ⟨h.fds, h.files, fun f hf => ?_, h.watches, h.next_le⟩
  obtain ⟨f', hf', hrel⟩ := h.file f hf
  exact ⟨f', hf', hR f f' hf hrel⟩

theorem Kept.trans (h : Kept R fd t t') (h' : Kept S fd t' t'')
    (hT : ∀ f f' f'', R f f' → S f' f'' → T f f'') : Kept T fd t t'' where
  fds := h'.fds.trans h.fds
  files i hi hne := (h'.files i (hi.trans_le h.next_le) (h.fds ▸ hne)).trans (h.files i hi hne)
  file f hf := by
    obtain ⟨f', hf', hR⟩ := h.file f hf
    obtain ⟨f'', hf'', hS⟩ := h'.file f' hf'
    exact ⟨f'', hf'', hT f f' f'' hR hS⟩
  watches := h'.watches.trans h.watches
  next_le := h.next_le.trans h'.next_le

theorem Kept.modify (t : DescriptorTable F W) (fd : ℕ) (change : F → F) :
    Kept (fun f f' => f' = change f) fd t (t.modify fd change) where
  fds := rfl
  files _ _ hne := if_neg hne
  file f hf := ⟨change f, by rw [lookup_modify, hf, Option.map_some], rfl⟩
  watches := rfl
  next_le := le_rfl

/-- A file is opened and closed again under a descriptor that was not in use. -/
theorem Kept.install_close (hv : t.fds v = none) (f : F) (fd : ℕ) :
    Kept Eq fd t ((t.install v f).close v) := by
  have hfds : ((t.install v f).close v).fds = t.fds := by
    rw [close_fds, install_fds, Function.update_idem, ← hv, Function.update_eq_self]
  have hfiles : ∀ i < t.next, ((t.install v f).close v).files i = t.files i :=
    fun i hi => Function.update_of_ne hi.ne _ _
  refine ⟨hfds, fun i hi _ => hfiles i hi, fun g hg => ⟨g, ?_, rfl⟩, rfl, Nat.le_succ _⟩
  rw [← hg]
  exact lookup_congr (congrFun hfds fd) (fun i hi => hfiles i (t.fds_lt fd i hi))

/-- A file is opened under a descriptor `v` that was not in use, `fd` comes to refer to it and
is worked on, and `v` is closed. -/
theorem Kept.replaced (hv : t.fds v = none) (hfd : (t.fds fd).isSome = true) {f : F}
    (h : Kept R fd ((t.install v f).dup2 v fd) t') :
    Replaced (fun _ f' => R f f') fd t (t'.close v) := by
  have hne := ne_of_isOpen hfd hv
  have hnew : ((t.install v f).dup2 v fd).fds fd = some t.next := by
    rw [dup2_fds, Function.update_self, install_fds, Function.update_self]
  have hlookup : ((t.install v f).dup2 v fd).lookup fd = some f := by
    rw [lookup_dup2, lookup_install]
  refine ⟨?_, ⟨t.next, ?_, le_rfl⟩, ?_, ?_, h.watches, (Nat.le_succ _).trans h.next_le⟩
  · intro j hj
    by_cases hjv : j = v
    · subst hjv
      rw [close_fds, Function.update_self, hv]
    · rw [close_fds, Function.update_of_ne hjv, h.fds, dup2_fds, Function.update_of_ne hj,
        install_fds, Function.update_of_ne hjv]
  · rw [close_fds, Function.update_of_ne hne, h.fds, hnew]
  · intro i hi
    refine (h.files i (hi.trans (Nat.lt_succ_self _)) ?_).trans (Function.update_of_ne hi.ne _ _)
    rw [hnew]
    exact fun heq => hi.ne (Option.some_injective _ heq).symm
  · intro _ _
    obtain ⟨f', hf', hR⟩ := h.file f hlookup
    exact ⟨f', (lookup_close_of_ne hne).trans hf', hR⟩

/-- Work on the new file. -/
theorem Replaced.trans (h : Replaced R fd t t') (h' : Kept S fd t' t'')
    (hT : ∀ f f' f'', R f f' → S f' f'' → T f f'') : Replaced T fd t t'' := by
  obtain ⟨new, hnew, hle⟩ := h.fresh
  refine ⟨?_, ⟨new, (congrFun h'.fds fd).trans hnew, hle⟩, ?_, ?_, h'.watches.trans h.watches,
    h.next_le.trans h'.next_le⟩
  · exact fun j hj => (congrFun h'.fds j).trans (h.others j hj)
  · intro i hi
    refine (h'.files i (hi.trans_le h.next_le) ?_).trans (h.files i hi)
    rw [hnew]
    exact fun heq => absurd (Option.some_injective _ heq ▸ hle) (not_le.mpr hi)
  · intro f hf
    obtain ⟨f', hf', hR⟩ := h.file f hf
    obtain ⟨f'', hf'', hS⟩ := h'.file f' hf'
    exact ⟨f'', hf'', hT f f' f'' hR hS⟩

theorem Added.install (hfd : t.fds fd = none) (f : F) : Added fd f t (t.install fd f) where
  unused := hfd
  fds := rfl
  files _ hi := Function.update_of_ne hi.ne _ _
  file := lookup_install t fd f
  watches := rfl
  next_le := Nat.le_succ _

/-- Work on the file that was opened. -/
theorem Added.modify {f : F} (h : Added fd f t t') (change : F → F) :
    Added fd (change f) t (t'.modify fd change) where
  unused := h.unused
  fds := h.fds
  files i hi := by
    refine (if_neg ?_).trans (h.files i hi)
    rw [h.fds, Function.update_self]
    exact fun heq => hi.ne (Option.some_injective _ heq).symm
  file := by rw [lookup_modify, h.file, Option.map_some]
  watches := h.watches
  next_le := h.next_le

/-- Work on a file that was open before. -/
theorem Added.modify_of_open {f : F} {new : ℕ} (h : Added new f t t')
    (hopen : (t.fds fd).isSome = true) (change : F → F) :
    Added new f (t.modify fd change) (t'.modify fd change) := by
  obtain ⟨i, hi⟩ := Option.isSome_iff_exists.mp hopen
  have hi' : t'.fds fd = some i := by
    rw [h.fds, Function.update_of_ne (ne_of_isOpen hopen h.unused), hi]
  refine ⟨h.unused, h.fds, fun j hj => ?_, ?_, h.watches, h.next_le⟩
  · simp only [modify_files, hi, hi', h.files j hj]
  · have hnew : t'.fds new = some t.next := by rw [h.fds, Function.update_self]
    have hne : t'.fds fd ≠ some t.next := by
      rw [hi']
      exact fun heq => (t.fds_lt fd i hi).ne (Option.some_injective _ heq)
    rw [← h.file]
    refine lookup_congr rfl (fun j hj => ?_)
    rw [hnew] at hj
    rw [modify_files, ← Option.some_injective _ hj, if_neg hne]

theorem Replaced.mono (h : Replaced R fd t t')
    (hR : ∀ f f', t.lookup fd = some f → R f f' → S f f') : Replaced S fd t t' := by
  refine ⟨h.others, h.fresh, h.files, fun f hf => ?_, h.watches, h.next_le⟩
  obtain ⟨f', hf', hrel⟩ := h.file f hf
  exact ⟨f', hf', hR f f' hf hrel⟩

end Work

end DescriptorTable
end PublicEndorsement
