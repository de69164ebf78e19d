import RoomWatch.Proofs.Wire.Spelling

/-!
# Reading written tokens

Written tokens stand next to each other without blanks. A number is the only token that does not
say itself where it ends, so two numbers may not stand side by side, and nothing may follow a
number that would make it longer.

* `Number.spelled_ofInt`, `Number.quantity?_ofInt`: the digits of an integer spell a numeral that
  denotes that integer.
* `spelled_chars`: the written form of a token is one of its spellings.
* `lex_written`: **what is written is read as the same tokens**, whatever follows it.
-/

namespace RoomWatch

namespace Number

/-- Only zero has digits that start with a zero. -/
theorem head?_toDigits {n : Nat} (hn : 0 < n) : (Nat.toDigits 10 n).head? ≠ some '0' := by
  induction n using Nat.strongRecOn with
  | ind n ih =>
    by_cases hlt : n < 10
    · rw [Nat.toDigits_of_lt_base hlt]
      have key : ∀ m < 10, 0 < m → [Nat.digitChar m].head? ≠ some '0' := by decide
      exact key n hlt hn
    · have hle := Nat.le_of_not_lt hlt
      rw [Nat.toDigits_of_base_le (by decide) hle,
        List.head?_append_of_ne_nil _ Nat.toDigits_ne_nil]
      exact ih (n / 10) (by omega) (by omega)

theorem isDigit_toDigits (n : Nat) : ∀ c ∈ Nat.toDigits 10 n, c.isDigit = true :=
  fun _ hc => Nat.isDigit_of_mem_toDigits (by decide) (by decide) hc

/-- Digits of a number are no zero in front of more digits. -/
theorem not_zero_cons {n : Nat} {c : Char} {cs : List Char} :
    Nat.toDigits 10 n ≠ '0' :: c :: cs := by
  intro h
  by_cases hn : n = 0
  · subst hn
    cases h
  · exact head?_toDigits (Nat.pos_of_ne_zero hn) (by rw [h]; rfl)

/-- The digits of an integer behind its sign spell its numeral. -/
theorem spelled_ofInt (n : Int) : (Numeral.ofInt n).Spelled (Numeral.ofInt n).chars := by
  have hspelled : (Numeral.ofInt n).Spelled
      ((if (Numeral.ofInt n).negative then ['-'] else []) ++ (Numeral.ofInt n).whole ++ [] ++ []) :=
    .mk ⟨Nat.toDigits_ne_nil, isDigit_toDigits n.natAbs⟩ (fun _ _ => not_zero_cons) .absent .absent
  have hchars : (Numeral.ofInt n).chars =
      (if (Numeral.ofInt n).negative then ['-'] else []) ++ (Numeral.ofInt n).whole ++ [] ++ [] :=
    rfl
  exact hchars ▸ hspelled

theorem magnitude_ofInt (n : Int) : (Numeral.ofInt n).magnitude = n.natAbs :=
  Nat.ofDigitChars_ten_toDigits

theorem wholeValue_ofInt (n : Int) : (Numeral.ofInt n).wholeValue = n := by
  unfold Numeral.wholeValue
  rw [magnitude_ofInt]
  by_cases hn : n < 0
  · simp only [Numeral.ofInt, hn, decide_true, if_true]
    omega
  · simp only [Numeral.ofInt, hn, decide_false, Bool.false_eq_true, if_false]
    omega

theorem isIntegral_ofInt (n : Int) : (Numeral.ofInt n).IsIntegral := by
  refine ⟨rfl, rfl, ?_⟩
  rintro ⟨hneg, hzero⟩
  have hn : n < 0 := of_decide_eq_true hneg
  rw [magnitude_ofInt] at hzero
  omega

/-- An integer of at most 64 bits is not read as a floating-point number. -/
theorem quantity?_ofInt {n : Int} (hlow : Int64.minValue.toInt ≤ n) (hhigh : n < UInt64.size) :
    (Numeral.ofInt n).quantity? = some (.integer n) := by
  unfold Numeral.quantity?
  rw [wholeValue_ofInt, if_pos ⟨isIntegral_ofInt n, hlow, hhigh⟩]

end Number

namespace Wire

open Text Number

namespace Token

/-- A token that can be written: no defect, and no number but an integer. -/
def Legible : Token → Prop
  | .number x => ∃ n, x = .ofInt n
  | .defect _ => False
  | _ => True

end Token

/-- The written form of a token is a spelling of it. -/
theorem spelled_chars {t : Token} (ht : t.Legible) : t.Spelled t.chars := by
  cases t with
  | number x =>
    obtain ⟨n, rfl⟩ := ht
    exact .number (spelled_ofInt n)
  | text s =>
    obtain ⟨gs, hgs, hs⟩ := Quoted.exists_spelled_encode s.toList
    exact .text hgs hs
  | defect d => exact ht.elim
  | _ =>
    refine .fixed ?_
    exact trivial

/-- A list of tokens that can be written: no two numbers stand side by side. -/
structure Readable (ts : List Token) : Prop where
  legible : ∀ t ∈ ts, t.Legible
  apart : ts.IsChain fun t u => t.IsNumber → ¬u.IsNumber

theorem readable_singleton {t : Token} (ht : t.Legible) : Readable [t] :=
  ⟨fun _ hu => List.mem_singleton.1 hu ▸ ht, .singleton t⟩

theorem readable_cons {t : Token} {ts : List Token} (ht : t.Legible) (hn : ¬t.IsNumber)
    (h : Readable ts) : Readable (t :: ts) :=
  ⟨List.forall_mem_cons.2 ⟨ht, h.legible⟩, apart_cons hn h.apart⟩

/-- Something that is no number keeps what stands around it apart. -/
theorem readable_append_cons {t : Token} {ts us : List Token} (hts : Readable ts) (hn : ¬t.IsNumber)
    (hus : Readable (t :: us)) : Readable (ts ++ t :: us) := by
  refine ⟨fun u hu => ?_, List.isChain_append.2 ⟨hts.apart, hus.apart, ?_⟩⟩
  · exact (List.mem_append.1 hu).elim (hts.legible u) (hus.legible u)
  · intro x _ y hy _
    cases hy
    exact hn

/-- What follows a number in a readable list does not make it longer. -/
theorem delimited_written {t : Token} {ts : List Token} (h : Readable (t :: ts)) (hn : t.IsNumber)
    {rest : List Char} (hrest : ts = [] → Delimited rest) : Delimited (written ts ++ rest) := by
  cases ts with
  | nil => exact hrest rfl
  | cons u us =>
    have hu := (List.isChain_cons_cons.1 h.apart).1 hn
    obtain ⟨c, cs, hchars, -, hdelimited⟩ := (spelled_chars (h.legible u (by simp))).exists_cons
    have hne : u.chars ≠ [] := hchars ▸ List.cons_ne_nil c cs
    rw [written, List.flatMap_cons, List.append_assoc]
    exact (hdelimited hu).append hne

/-- **The written form of a list of tokens is read as that list**, whatever follows it that does not
make a number at its end longer. -/
theorem lex_written {ts : List Token} (h : Readable ts) {rest : List Char}
    (hrest : (∀ t ∈ ts.getLast?, ¬t.IsNumber) ∨ Delimited rest) :
    lex (written ts ++ rest) = ts ++ lex rest := by
  induction ts with
  | nil => rfl
  | cons t ts ih =>
    have htail : Readable ts := ⟨(List.forall_mem_cons.1 h.legible).2, h.apart.of_cons⟩
    have hwritten : written (t :: ts) ++ rest = t.chars ++ (written ts ++ rest) := by
      simp [written]
    have hnext : t.IsNumber → Delimited (written ts ++ rest) := by
      intro hn
      refine delimited_written h hn ?_
      rintro rfl
      exact hrest.resolve_left fun hlast => hlast t rfl hn
    rw [hwritten, lex_token (spelled_chars (h.legible t List.mem_cons_self)) hnext, ih htail ?_]
    · rfl
    · refine hrest.imp_left fun hlast u hu => hlast u ?_
      cases ts with
      | nil => cases hu
      | cons v vs => exact hu

end Wire

end RoomWatch
