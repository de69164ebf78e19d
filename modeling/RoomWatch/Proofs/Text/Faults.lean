import RoomWatch.Proofs.Text.Glyphs

/-!
# Faults in a quoted text

Behind any glyphs there may be something that is none: a control character that stands for itself, a
backslash in front of a character that starts no escape, or a `\u` without its digits (`Fault`). And
glyphs may be closed although they denote no text. Both are `Faulty`.

A surrogate in front of a fault lacks its partner, which the reader passes over, so that it comes to
the fault in any case (`Piece.Doomed`).

* `next_fault`, `afterLeading_fault`: what the reader makes of a fault, and of a surrogate in front
  of it.
* `scan_fault`: **a fault is found behind any glyphs**, whatever follows it.
-/

namespace RoomWatch.Text.Quoted

/-- What may not stand inside quotes. -/
inductive Fault : List Char → Prop where
  | control {c : Char} (h : c.toNat < 32) : Fault [c]
  | escape {e : Char} (hunit : e ≠ 'u') (h : ∀ c, (e, c) ∉ shortForms) : Fault ['\\', e]
  | digits {a b c d : Char} (h : ¬∀ x ∈ [a, b, c, d], ∃ n, IsHex n x) :
    Fault ['\\', 'u', a, b, c, d]

/-- The characters behind an opening quote up to where they are known to spell no text. -/
inductive Faulty : List Char → Prop where
  | fault {gs : List Glyph} {cs ds : List Char} (h : Spelled gs cs) (hds : Fault ds) :
    Faulty (cs ++ ds)
  | unpaired {gs : List Glyph} {cs : List Char} (h : Spelled gs cs) (hs : denoted? gs = none) :
    Faulty (cs ++ ['"'])

/-! ## One fault -/

theorem exists_isHex {c : Char} {n : Nat} (h : hexValue? c = some n) : IsHex n c := by
  have key : ∀ m < 128, ∀ n ∈ hexValue? (Char.ofNat m),
      n < 16 ∧ (Char.ofNat m = Nat.digitChar n ∨ Char.ofNat m = (Nat.digitChar n).toUpper) := by
    decide
  have hlt : c.toNat < 128 := by
    refine Nat.lt_of_not_le fun hge => ?_
    have hpast {d : Char} (hd : d.toNat < 128) : ¬c ≤ d := fun hle =>
      Nat.not_lt.2 hge (Nat.lt_of_le_of_lt (UInt32.le_iff_toNat_le.1 hle) hd)
    unfold hexValue? at h
    rw [if_neg fun hc => hpast (by decide) hc.2, if_neg fun hc => hpast (by decide) hc.2,
      if_neg fun hc => hpast (by decide) hc.2] at h
    cases h
  have hkey := key c.toNat hlt n
  rw [Char.ofNat_toNat] at hkey
  exact hkey h

theorem mem_shortForms {e c : Char} (h : shortEscape? e = some c) : (e, c) ∈ shortForms := by
  unfold shortEscape? at h
  split at h <;> cases h <;> decide

theorem hexUnit_fault {a b c d : Char} (h : ¬∀ x ∈ [a, b, c, d], ∃ n, IsHex n x)
    (rest : List Char) : hexUnit (a :: b :: c :: d :: rest) = .bad := by
  simp only [hexUnit]
  split
  · next ha hb hc hd =>
    refine absurd ?_ h
    simp only [List.forall_mem_cons]
    exact ⟨⟨_, exists_isHex ha⟩, ⟨_, exists_isHex hb⟩, ⟨_, exists_isHex hc⟩, ⟨_, exists_isHex hd⟩,
      List.forall_mem_nil _⟩
  · rfl

theorem next_fault {ds : List Char} (h : Fault ds) (rest : List Char) :
    next (ds ++ rest) = .bad := by
  cases h with
  | @control c h =>
    rw [List.singleton_append]
    unfold next
    split
    · next heq => cases heq
    · next heq => cases heq; exact absurd h (by decide)
    · next heq => cases heq; exact absurd h (by decide)
    · next heq => cases heq; exact if_pos h
  | @escape e hunit h =>
    have hshort : shortEscape? e = none :=
      Option.eq_none_iff_forall_ne_some.2 fun c hc => h c (mem_shortForms hc)
    simp only [List.cons_append, List.nil_append, next]
    unfold afterBackslash
    split
    · next heq => cases heq
    · next heq => cases heq; exact absurd rfl hunit
    · next heq => cases heq; rw [hshort]
  | digits h => simp only [List.cons_append, List.nil_append, next, afterBackslash, hexUnit_fault h]

/-- A surrogate in front of a fault lacks its partner, or the fault is found in its place. -/
theorem afterLeading_fault {ds : List Char} (h : Fault ds) (n : Nat) (rest : List Char) :
    afterLeading n (ds ++ rest) = .unpaired (ds ++ rest) ∨ afterLeading n (ds ++ rest) = .bad := by
  cases h with
  | @control c h =>
    refine .inl ?_
    rw [List.singleton_append]
    unfold afterLeading
    split
    · next heq => cases heq
    · next heq => cases heq; exact absurd h (by decide)
    · next heq => cases heq; exact absurd h (by decide)
    · rfl
  | @escape e hunit h =>
    refine .inl ?_
    simp only [List.cons_append, List.nil_append]
    unfold afterLeading
    split
    · next heq => cases heq
    · next heq => cases heq
    · next heq => cases heq; exact absurd rfl hunit
    · rfl
  | digits h =>
    refine .inr ?_
    simp only [List.cons_append, List.nil_append, afterLeading, hexUnit_fault h]

/-! ## Behind any glyphs -/

/-- The reader goes on from a piece to a fault. -/
def Piece.Doomed : Piece → Prop
  | .char _ rest | .unpaired rest => scan rest = .bad
  | .bad => True
  | .close _ | .cut => False

theorem scan_of_doomed {cs : List Char} (h : (next cs).Doomed) : scan cs = .bad := by
  cases hn : next cs with
  | char c rest =>
    rw [hn] at h
    rw [scan_of_char hn, show scan rest = .bad from h]
    rfl
  | unpaired rest =>
    rw [hn] at h
    rw [scan_of_unpaired hn, show scan rest = .bad from h]
    rfl
  | bad =>
    rw [scan]
    split <;> simp_all
  | close rest =>
    rw [hn] at h
    exact h.elim
  | cut =>
    rw [hn] at h
    exact h.elim

/-- **A fault is found behind any glyphs**, whatever follows it. -/
theorem scan_fault {gs : List Glyph} {cs ds : List Char} (h : Spelled gs cs) (hds : Fault ds)
    (rest : List Char) : scan (cs ++ (ds ++ rest)) = .bad := by
  -- a leading surrogate decides about the glyph behind it too
  suffices hboth : scan (cs ++ (ds ++ rest)) = .bad ∧
      ∀ n, (afterLeading n (cs ++ (ds ++ rest))).Doomed from hboth.1
  induction h with
  | nil =>
    have hbad : scan (ds ++ rest) = .bad :=
      scan_of_doomed (by rw [next_fault hds]; trivial)
    refine ⟨hbad, fun n => ?_⟩
    rcases afterLeading_fault hds n rest with hn | hn <;> rw [List.nil_append, hn]
    · exact hbad
    · trivial
  | @cons g gs cs es first more ih =>
    obtain ⟨hmore, hleading⟩ := ih
    rw [List.append_assoc]
    cases g with
    | char c =>
      have hbad : scan (cs ++ (es ++ (ds ++ rest))) = .bad :=
        scan_of_doomed (by rw [next_char first]; exact hmore)
      refine ⟨hbad, fun n => ?_⟩
      rw [afterLeading_char first]
      exact hbad
    | unit m =>
      have hbad : scan (cs ++ (es ++ (ds ++ rest))) = .bad := by
        refine scan_of_doomed ?_
        rw [next_unit first]
        split
        · exact hleading m
        · split <;> exact hmore
      refine ⟨hbad, fun n => ?_⟩
      rw [afterLeading_unit first]
      split
      · exact hmore
      · exact hbad

end RoomWatch.Text.Quoted
