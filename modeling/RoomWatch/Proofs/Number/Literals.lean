import RoomWatch.Number.Numeral

/-!
# Spellings of a number

A number literal has a minus or not, digits without leading zeros, a fraction or not, and an
exponent or not, behind `e` or `E` and with a sign or not. It does not say itself where it ends, so
nothing may follow it that would make it longer (`Delimited`).

* `scan_spelled`: **every spelling of a numeral is read as that numeral.**
-/

namespace RoomWatch.Number

/-- Nothing in a text makes a number longer that stands in front of it. -/
def Delimited (cs : List Char) : Prop :=
  ∀ c ∈ cs.head?, c.isDigit = false ∧ c ≠ '.' ∧ c ≠ 'e' ∧ c ≠ 'E'

theorem delimited_nil : Delimited [] := nofun

theorem Delimited.append {cs rest : List Char} (h : Delimited cs) (hne : cs ≠ []) :
    Delimited (cs ++ rest) := by
  obtain ⟨d, ds, rfl⟩ := List.exists_cons_of_ne_nil hne
  exact h

/-- One digit at least, and nothing else. -/
structure Digits (ds : List Char) : Prop where
  ne_nil : ds ≠ []
  isDigit : ∀ c ∈ ds, c.isDigit = true

/-- The characters that spell a fraction with these digits. -/
inductive FractionSpelled : List Char → List Char → Prop where
  | absent : FractionSpelled [] []
  | digits {ds : List Char} (h : Digits ds) : FractionSpelled ds ('.' :: ds)

/-- The sign of an exponent, with whether it is a minus. -/
inductive SignSpelled : Bool → List Char → Prop where
  | absent : SignSpelled false []
  | plus : SignSpelled false ['+']
  | minus : SignSpelled true ['-']

/-- The characters that spell an exponent. Its digits may start with zeros. -/
inductive ExponentSpelled : Option Int → List Char → Prop where
  | absent : ExponentSpelled none []
  | digits {mark : Char} {negative : Bool} {sign ds : List Char} {e : Int}
    (hmark : mark = 'e' ∨ mark = 'E') (hsign : SignSpelled negative sign) (h : Digits ds)
    (he : e = if negative then -(Nat.ofDigitChars 10 ds 0 : Int) else Nat.ofDigitChars 10 ds 0) :
    ExponentSpelled (some e) (mark :: (sign ++ ds))

/-- The characters that spell a numeral. -/
inductive Numeral.Spelled : Numeral → List Char → Prop where
  | mk {x : Numeral} {fraction exponent : List Char} (hwhole : Digits x.whole)
    (hzero : ∀ d ds, x.whole ≠ '0' :: d :: ds) (hfraction : FractionSpelled x.fraction fraction)
    (hexponent : ExponentSpelled x.exponent exponent) :
    Spelled x ((if x.negative then ['-'] else []) ++ x.whole ++ fraction ++ exponent)

/-! ## Reading a literal part by part -/

/-- Digits are read up to the first character that is none. -/
theorem takeWhile_digits {ds rest : List Char} (h : ∀ c ∈ ds, c.isDigit = true)
    (hrest : ∀ c ∈ rest.head?, c.isDigit = false) :
    (ds ++ rest).takeWhile Char.isDigit = ds ∧ (ds ++ rest).dropWhile Char.isDigit = rest := by
  rw [List.takeWhile_append_of_pos h, List.dropWhile_append_of_pos h]
  cases rest with
  | nil => exact ⟨List.append_nil _, rfl⟩
  | cons c cs =>
    have hc := hrest c rfl
    rw [List.takeWhile_cons_of_neg (by simp [hc]), List.dropWhile_cons_of_neg (by simp [hc]),
      List.append_nil]
    exact ⟨rfl, rfl⟩

theorem Digits.exists_cons {ds : List Char} (h : Digits ds) :
    ∃ d es, ds = d :: es ∧ d.isDigit = true := by
  obtain ⟨d, es, rfl⟩ := List.exists_cons_of_ne_nil h.ne_nil
  exact ⟨d, es, rfl, h.isDigit d List.mem_cons_self⟩

/-- A digit is no sign. -/
theorem splitMinus_digits {ds : List Char} (h : Digits ds) (rest : List Char) :
    splitMinus (ds ++ rest) = (false, ds ++ rest) := by
  obtain ⟨d, es, rfl, hd⟩ := h.exists_cons
  unfold splitMinus
  split
  · next heq => cases heq; exact absurd hd (by decide)
  · rfl

theorem splitSign_spelled {negative : Bool} {sign ds : List Char}
    (hsign : SignSpelled negative sign) (h : Digits ds) (rest : List Char) :
    splitSign (sign ++ ds ++ rest) = (negative, ds ++ rest) := by
  cases hsign with
  | absent =>
    obtain ⟨d, es, rfl, hd⟩ := h.exists_cons
    unfold splitSign
    split
    · next heq => cases heq; exact absurd hd (by decide)
    · exact splitMinus_digits h rest
  | plus => rfl
  | minus => rfl

theorem scanExponent_spelled {x : Numeral} {cs rest : List Char}
    (h : ExponentSpelled x.exponent cs) (hrest : Delimited rest) :
    scanExponent { x with exponent := none } (cs ++ rest) = .closed x rest := by
  obtain ⟨negative, whole, fraction, exponent⟩ := x
  cases h with
  | absent =>
    rw [List.nil_append]
    unfold scanExponent
    split
    · exact absurd rfl (hrest _ rfl).2.2.1
    · exact absurd rfl (hrest _ rfl).2.2.2
    · rfl
  | @digits mark _ sign ds _ hmark hsign h he =>
    have hdigits : ∀ y, scanExponent y (mark :: (sign ++ ds) ++ rest) =
        scanExponentDigits y (sign ++ ds ++ rest) := by
      rcases hmark with rfl | rfl <;> exact fun _ => rfl
    obtain ⟨htake, hdrop⟩ := takeWhile_digits h.isDigit fun c hc => (hrest c hc).1
    rw [hdigits, scanExponentDigits, splitSign_spelled hsign h]
    simp only [htake, hdrop, if_neg h.ne_nil, he]

/-- What may follow the digits before the point is no digit. -/
theorem head_exponent {e : Option Int} {cs rest : List Char} (h : ExponentSpelled e cs)
    (hrest : Delimited rest) : ∀ c ∈ (cs ++ rest).head?, c.isDigit = false ∧ c ≠ '.' := by
  intro c hc
  cases h with
  | absent => exact ⟨(hrest c hc).1, (hrest c hc).2.1⟩
  | digits hmark => cases hc; rcases hmark with rfl | rfl <;> decide

theorem scanFraction_spelled {x : Numeral} {fraction exponent rest : List Char}
    (hfraction : FractionSpelled x.fraction fraction)
    (hexponent : ExponentSpelled x.exponent exponent) (hrest : Delimited rest) :
    scanFraction ⟨x.negative, x.whole, [], none⟩ (fraction ++ exponent ++ rest) =
      .closed x rest := by
  have hhead := head_exponent hexponent hrest
  have hscan := scanExponent_spelled hexponent hrest
  obtain ⟨negative, whole, digits, e⟩ := x
  cases hfraction with
  | absent =>
    rw [List.nil_append]
    unfold scanFraction
    split
    · next heq => exact absurd rfl (hhead '.' (by rw [heq]; rfl)).2
    · exact hscan
  | digits h =>
    obtain ⟨htake, hdrop⟩ := takeWhile_digits h.isDigit fun c hc => (hhead c hc).1
    rw [List.cons_append, List.cons_append, List.append_assoc, scanFraction]
    simp only [htake, hdrop, if_neg h.ne_nil]
    exact hscan

/-- A fraction and an exponent do not go on with the digits in front of them. -/
theorem head_fraction {fs es rest ds : List Char} {e : Option Int}
    (hfraction : FractionSpelled ds fs) (hexponent : ExponentSpelled e es) (hrest : Delimited rest) :
    ∀ c ∈ (fs ++ es ++ rest).head?, c.isDigit = false := by
  intro c hc
  cases hfraction with
  | absent => exact (head_exponent hexponent hrest c hc).1
  | digits => cases hc; decide

/-- **Every spelling of a numeral is read as that numeral**, up to its end. -/
theorem scan_spelled {x : Numeral} {cs rest : List Char} (h : x.Spelled cs)
    (hrest : Delimited rest) : scan (cs ++ rest) = .closed x rest := by
  cases h with
  | @mk fs es hwhole hzero hfraction hexponent =>
    have hminus : splitMinus ((if x.negative then ['-'] else []) ++ x.whole ++ fs ++ es ++ rest) =
        (x.negative, x.whole ++ (fs ++ es ++ rest)) := by
      simp only [List.append_assoc]
      cases x.negative
      · exact splitMinus_digits hwhole _
      · rfl
    obtain ⟨htake, hdrop⟩ :=
      takeWhile_digits hwhole.isDigit (head_fraction hfraction hexponent hrest)
    unfold scan
    simp only [hminus, htake, hdrop]
    split
    · next hnil => exact absurd hnil hwhole.ne_nil
    · next heq => exact absurd heq (hzero _ _)
    · exact scanFraction_spelled hfraction hexponent hrest

/-- A number starts with a minus or a digit. -/
theorem Numeral.Spelled.exists_cons {x : Numeral} {cs : List Char} (h : x.Spelled cs) :
    ∃ c ds, cs = c :: ds ∧ (c = '-' ∨ c.isDigit = true) := by
  cases h with
  | @mk fs es hwhole =>
    obtain ⟨d, ds, hds, hd⟩ := hwhole.exists_cons
    cases x.negative
    · exact ⟨d, ds ++ fs ++ es, by simp [hds], .inr hd⟩
    · exact ⟨'-', x.whole ++ fs ++ es, by simp, .inl rfl⟩

end RoomWatch.Number
