import RoomWatch.Text.Quoted

/-!
# Spellings of a quoted text

Inside quotes a character may stand for itself, be written by a short escape or by a `\u` escape,
and a character above U+FFFF by the escapes of two surrogates. A `Glyph` is one of these, and a list
of glyphs denotes a text unless a surrogate in it lacks its partner (`denoted?`).

* `next_char`, `next_unit`: what the reader makes of one glyph.
* `afterLeading_char`, `afterLeading_unit`: the same behind a surrogate that looks for its partner.
* `scan_spelled`: **every spelling of a text is read as that text.**
* `compact_encode`: **what is escaped in the written form is what has to be.**
* `exists_spelled_encode`: the written form of a text is one of its spellings.
-/

namespace RoomWatch.Text.Quoted

/-- What stands for a character, or for half of one, inside quotes. -/
inductive Glyph where
  | char (c : Char)
  /-- A 16-bit unit, written by its hexadecimal digits. -/
  | unit (n : Nat)

/-- The short escapes, with what they stand for. -/
def shortForms : List (Char × Char) :=
  [('"', '"'), ('\\', '\\'), ('/', '/'), ('b', '\x08'), ('f', '\x0c'), ('n', '\n'), ('r', '\x0d'),
    ('t', '\t')]

/-- A hexadecimal digit, of either case. -/
def IsHex (n : Nat) (c : Char) : Prop :=
  n < 16 ∧ (c = Nat.digitChar n ∨ c = (Nat.digitChar n).toUpper)

/-- The characters that spell a glyph. -/
inductive Glyph.Spelled : Glyph → List Char → Prop where
  | raw {c : Char} (hcontrol : 32 ≤ c.toNat) (hquote : c ≠ '"') (hbackslash : c ≠ '\\') :
    Spelled (.char c) [c]
  | short {e c : Char} (h : (e, c) ∈ shortForms) : Spelled (.char c) ['\\', e]
  | unit {w x y z : Nat} {a b c d : Char} (ha : IsHex w a) (hb : IsHex x b) (hc : IsHex y c)
    (hd : IsHex z d) : Spelled (.unit (((w * 16 + x) * 16 + y) * 16 + z)) ['\\', 'u', a, b, c, d]

/-- The characters that spell glyphs one after another. -/
inductive Spelled : List Glyph → List Char → Prop where
  | nil : Spelled [] []
  | cons {g : Glyph} {gs : List Glyph} {cs ds : List Char} (first : g.Spelled cs)
    (more : Spelled gs ds) : Spelled (g :: gs) (cs ++ ds)

/-- The text that glyphs denote; none if a surrogate has no partner. -/
def denoted? : List Glyph → Option (List Char)
  | [] => some []
  | .char c :: gs => (denoted? gs).map (c :: ·)
  | .unit n :: gs =>
    if isLeading n then
      match gs with
      | .unit m :: gs =>
        if isTrailing m then (denoted? gs).map (Char.ofNat (pairValue n m) :: ·) else none
      | _ => none
    else if isTrailing n then none
    else (denoted? gs).map (Char.ofNat n :: ·)

/-- A leading surrogate that stands in front of anything but its partner. -/
def Lone (n : Nat) (gs : List Glyph) : Prop :=
  isLeading n = true ∧ ∀ m, .unit m ∈ gs.head? → isTrailing m = false

theorem denoted?_lone {n : Nat} {gs : List Glyph} (h : Lone n gs) :
    denoted? (.unit n :: gs) = none := by
  unfold denoted?
  rw [if_pos h.1]
  split
  · next m _ => rw [h.2 m rfl, if_neg Bool.false_ne_true]
  · rfl

theorem denoted?_pair {n m : Nat} {gs : List Glyph} (hn : isLeading n = true)
    (hm : isTrailing m = true) :
    denoted? (.unit n :: .unit m :: gs) =
      (denoted? gs).map (Char.ofNat (pairValue n m) :: ·) := by
  rw [denoted?, if_pos hn, if_pos hm]

theorem denoted?_of_not_leading {n : Nat} {gs : List Glyph} (hn : ¬isLeading n = true) :
    denoted? (.unit n :: gs) =
      if isTrailing n then none else (denoted? gs).map (Char.ofNat n :: ·) :=
  (denoted?.eq_def _).trans (if_neg hn)

/-- What is read of a text that has been delimited. -/
def literal (text : Option (List Char)) (rest : List Char) : Literal :=
  match text with
  | some s => .closed s rest
  | none => .unpaired rest

theorem push_literal (c : Char) (text : Option (List Char)) (rest : List Char) :
    (literal text rest).push c = literal (text.map (c :: ·)) rest := by
  cases text <;> rfl

theorem pushUnpaired_literal (text : Option (List Char)) (rest : List Char) :
    (literal text rest).pushUnpaired = literal none rest := by
  cases text <;> rfl

/-! ## One glyph -/

theorem hexValue?_of_isHex {n : Nat} {c : Char} (h : IsHex n c) : hexValue? c = some n := by
  have key : ∀ m < 16, hexValue? (Nat.digitChar m) = some m ∧
    hexValue? (Nat.digitChar m).toUpper = some m := by decide
  obtain ⟨hn, rfl | rfl⟩ := h
  · exact (key n hn).1
  · exact (key n hn).2

theorem shortEscape?_of_mem {e c : Char} (h : (e, c) ∈ shortForms) :
    shortEscape? e = some c ∧ e ≠ 'u' := by
  have key : ∀ f ∈ shortForms, shortEscape? f.1 = some f.2 ∧ f.1 ≠ 'u' := by decide
  exact key (e, c) h

/-- A spelled unit is read from behind its `\u`. -/
theorem exists_hexUnit {n : Nat} {cs : List Char} (h : Glyph.Spelled (.unit n) cs) :
    ∃ ds, cs = '\\' :: 'u' :: ds ∧ ∀ rest, hexUnit (ds ++ rest) = .unit n rest := by
  cases h with
  | unit ha hb hc hd =>
    refine ⟨_, rfl, fun rest => ?_⟩
    simp only [List.cons_append, List.nil_append, hexUnit, hexValue?_of_isHex ha,
      hexValue?_of_isHex hb, hexValue?_of_isHex hc, hexValue?_of_isHex hd]

theorem next_char {c : Char} {cs : List Char} (h : Glyph.Spelled (.char c) cs) (rest : List Char) :
    next (cs ++ rest) = .char c rest := by
  cases h with
  | raw hcontrol hquote hbackslash =>
    rw [List.singleton_append]
    unfold next
    split
    · next heq => cases heq
    · next heq => cases heq; exact absurd rfl hquote
    · next heq => cases heq; exact absurd rfl hbackslash
    · next heq => cases heq; exact if_neg (Nat.not_lt.2 hcontrol)
  | @short e _ h =>
    obtain ⟨hshort, hunit⟩ := shortEscape?_of_mem h
    simp only [List.cons_append, List.nil_append, next]
    unfold afterBackslash
    split
    · next heq => cases heq
    · next heq => cases heq; exact absurd rfl hunit
    · next heq => cases heq; simp only [hshort]

/-- A unit that is not the first half of a pair stands for itself. -/
theorem next_unit {n : Nat} {cs : List Char} (h : Glyph.Spelled (.unit n) cs) (rest : List Char) :
    next (cs ++ rest) =
      if isLeading n then afterLeading n rest
      else if isTrailing n then .unpaired rest
      else .char (Char.ofNat n) rest := by
  obtain ⟨ds, rfl, hunit⟩ := exists_hexUnit h
  simp only [List.cons_append, next, afterBackslash, hunit]

/-- A leading surrogate in front of a character. -/
theorem afterLeading_char {n : Nat} {c : Char} {cs : List Char} (h : Glyph.Spelled (.char c) cs)
    (rest : List Char) : afterLeading n (cs ++ rest) = .unpaired (cs ++ rest) := by
  cases h with
  | raw hcontrol hquote hbackslash =>
    rw [List.singleton_append]
    unfold afterLeading
    split
    · next heq => cases heq
    · next heq => exact absurd (List.cons.inj heq).1 hbackslash
    · next heq => exact absurd (List.cons.inj heq).1 hbackslash
    · rfl
  | short h =>
    simp only [List.cons_append, List.nil_append]
    unfold afterLeading
    split
    · next heq => cases heq
    · next heq => simp at heq
    · next heq => cases heq; exact absurd rfl (shortEscape?_of_mem h).2
    · rfl

/-- A leading surrogate in front of a unit, which may be its partner. -/
theorem afterLeading_unit {n m : Nat} {cs : List Char} (h : Glyph.Spelled (.unit m) cs)
    (rest : List Char) :
    afterLeading n (cs ++ rest) =
      if isTrailing m then .char (Char.ofNat (pairValue n m)) rest else .unpaired (cs ++ rest) := by
  obtain ⟨ds, rfl, hunit⟩ := exists_hexUnit h
  simp only [List.cons_append, afterLeading, hunit]

/-- A leading surrogate in front of anything but its partner. -/
theorem afterLeading_lone {n : Nat} {gs : List Glyph} {cs : List Char} (h : Spelled gs cs)
    (hlone : Lone n gs) (rest : List Char) :
    afterLeading n (cs ++ '"' :: rest) = .unpaired (cs ++ '"' :: rest) := by
  cases h with
  | nil => rfl
  | @cons g gs cs ds first more =>
    rw [List.append_assoc]
    cases g with
    | char c => exact afterLeading_char first _
    | unit m => rw [afterLeading_unit first, hlone.2 m rfl, if_neg Bool.false_ne_true]

/-! ## Whole texts -/

theorem scan_of_char {c : Char} {cs rest : List Char} (h : next cs = .char c rest) :
    scan cs = (scan rest).push c := by
  rw [scan]
  split <;> simp_all

theorem scan_of_unpaired {cs rest : List Char} (h : next cs = .unpaired rest) :
    scan cs = (scan rest).pushUnpaired := by
  rw [scan]
  split <;> simp_all

/-- **Every spelling of a text is read as that text**, and the reader finds the end of a text that
denotes none. -/
theorem scan_spelled {gs : List Glyph} {cs : List Char} (h : Spelled gs cs) (rest : List Char) :
    scan (cs ++ '"' :: rest) = literal (denoted? gs) rest := by
  -- a pair takes two glyphs, so the induction is on the number of glyphs
  induction hn : gs.length using Nat.strongRecOn generalizing gs cs with
  | ind k ih =>
    subst hn
    cases h with
    | nil => rw [List.nil_append, scan]; rfl
    | @cons g gs cs ds first more =>
      have hmore := ih _ (Nat.lt_succ_self _) more rfl
      rw [List.append_assoc]
      cases g with
      | char c => rw [scan_of_char (next_char first _), hmore, push_literal, denoted?]
      | unit n =>
        have hnext := next_unit first (ds ++ '"' :: rest)
        by_cases hleading : isLeading n = true
        · rw [if_pos hleading] at hnext
          by_cases hlone : Lone n gs
          · rw [afterLeading_lone more hlone] at hnext
            rw [scan_of_unpaired hnext, hmore, pushUnpaired_literal, denoted?_lone hlone]
          · obtain ⟨m, hm, htrailing⟩ : ∃ m, .unit m ∈ gs.head? ∧ isTrailing m = true := by
              simpa [Lone, hleading] using hlone
            cases more with
            | nil => cases hm
            | @cons _ gs es fs second more =>
              cases hm
              rw [List.append_assoc, afterLeading_unit second, if_pos htrailing] at hnext
              have hrest := ih _ (Nat.lt_succ_of_lt (Nat.lt_succ_self _)) more rfl
              rw [List.append_assoc, scan_of_char hnext, hrest, push_literal,
                denoted?_pair hleading htrailing]
        · rw [if_neg hleading] at hnext
          rw [denoted?_of_not_leading hleading]
          split
          case isTrue htrailing =>
            rw [if_pos htrailing] at hnext
            rw [scan_of_unpaired hnext, hmore, pushUnpaired_literal]
          case isFalse htrailing =>
            rw [if_neg htrailing] at hnext
            rw [scan_of_char hnext, hmore, push_literal]

/-! ## The written form -/

/-- The characters that are not written as themselves. -/
def MustEscape (c : Char) : Prop := c = '"' ∨ c = '\\' ∨ c.toNat < 32

/-- The compact spelling of a character: itself if that may be, else its short escape, and four
hexadecimal digits if it has none. -/
inductive Escaped : Char → List Char → Prop where
  | raw {c : Char} (h : ¬MustEscape c) : Escaped c [c]
  | short {e c : Char} (h : MustEscape c) (he : (e, c) ∈ shortForms) : Escaped c ['\\', e]
  | unit {c : Char} (h : c.toNat < 32) (he : ∀ e, (e, c) ∉ shortForms) :
    Escaped c ['\\', 'u', '0', '0', hexDigit (c.toNat / 16), hexDigit c.toNat]

/-- The compact spelling of a text, character by character. -/
inductive Compact : List Char → List Char → Prop where
  | nil : Compact [] []
  | cons {c : Char} {s cs ds : List Char} (first : Escaped c cs) (more : Compact s ds) :
    Compact (c :: s) (cs ++ ds)

/-- **A character is escaped if it has to be**, and only then. -/
theorem escaped_escape (c : Char) : Escaped c (escape c) := by
  unfold escape
  split
  · next h => subst h; exact .short (.inl rfl) (by decide)
  split
  · next h => subst h; exact .short (.inr (.inl rfl)) (by decide)
  split
  · next h => subst h; exact .short (.inr (.inr (by decide))) (by decide)
  split
  · next h => subst h; exact .short (.inr (.inr (by decide))) (by decide)
  split
  · next h => subst h; exact .short (.inr (.inr (by decide))) (by decide)
  split
  · next h => subst h; exact .short (.inr (.inr (by decide))) (by decide)
  split
  · next h => subst h; exact .short (.inr (.inr (by decide))) (by decide)
  split
  · next h1 h2 h3 h4 h5 h6 h7 hcontrol =>
    refine .unit hcontrol fun e he => ?_
    have hslash : c ≠ '/' := by
      rintro rfl
      exact absurd hcontrol (by decide)
    simp [shortForms, h1, h2, h3, h4, h5, h6, h7, hslash] at he
  · next hquote hbackslash _ _ _ _ _ hcontrol =>
    refine .raw ?_
    rintro (h | h | h)
    · exact hquote h
    · exact hbackslash h
    · exact hcontrol h

theorem compact_encode (s : List Char) : Compact s (encode s) := by
  induction s with
  | nil => exact .nil
  | cons c s ih =>
    rw [encode, List.flatMap_cons]
    exact .cons (escaped_escape c) ih

theorem isHex_hexDigit (n : Nat) : IsHex (n % 16) (hexDigit n) :=
  ⟨Nat.mod_lt _ (by decide), .inl rfl⟩

/-- The compact spelling of a character is a spelling of it. -/
theorem Escaped.exists_glyph {c : Char} {cs : List Char} (h : Escaped c cs) :
    ∃ g : Glyph, g.Spelled cs ∧ ∀ gs, denoted? (g :: gs) = (denoted? gs).map (c :: ·) := by
  cases h with
  | raw h =>
    have hcontrol : 32 ≤ c.toNat := Nat.le_of_not_lt fun hlt => h (.inr (.inr hlt))
    exact ⟨.char c, .raw hcontrol (fun hc => h (.inl hc)) (fun hc => h (.inr (.inl hc))),
      fun _ => rfl⟩
  | short _ he => exact ⟨.char c, .short he, fun _ => rfl⟩
  | unit h he =>
    have hzero : IsHex 0 '0' := ⟨by decide, .inl (by decide)⟩
    have hvalue : ((0 * 16 + 0) * 16 + c.toNat / 16 % 16) * 16 + c.toNat % 16 = c.toNat := by omega
    have hleading : ¬isLeading c.toNat = true := by simp [isLeading]; omega
    have htrailing : ¬isTrailing c.toNat = true := by simp [isTrailing]; omega
    have hspelled := Glyph.Spelled.unit hzero hzero (isHex_hexDigit (c.toNat / 16))
      (isHex_hexDigit c.toNat)
    rw [hvalue] at hspelled
    refine ⟨.unit c.toNat, hspelled, fun gs => ?_⟩
    rw [denoted?_of_not_leading hleading, if_neg htrailing, Char.ofNat_toNat]

/-- **The written form of a text is a spelling of it.** -/
theorem exists_spelled_encode (s : List Char) :
    ∃ gs, Spelled gs (encode s) ∧ denoted? gs = some s := by
  induction s with
  | nil => exact ⟨[], .nil, rfl⟩
  | cons c s ih =>
    obtain ⟨g, hg, hdenoted⟩ := (escaped_escape c).exists_glyph
    obtain ⟨gs, hgs, hs⟩ := ih
    refine ⟨g :: gs, ?_, by rw [hdenoted, hs]; rfl⟩
    rw [encode, List.flatMap_cons]
    exact .cons hg hgs

end RoomWatch.Text.Quoted
