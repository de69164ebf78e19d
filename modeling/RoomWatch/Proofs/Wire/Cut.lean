import RoomWatch.Proofs.Wire.Lexing

/-!
# Cut texts

A written text that is cut somewhere is read as the tokens in front of the cut and what is left of
the token at the cut. Of a text, a `null` or a truth value that is the defect of its missing end; of
an integer it is an integer between it and zero, or the defect of a sign without digits.

* `Number.exists_toDigits_of_append`: digits that are cut are those of a smaller number.
* `Quoted.scan_of_append`: a cut in a quoted text is seen wherever it is, also inside an escape.
* `cut_token`: one token.
* `cut_written`: **a cut text is read as cut tokens.**
-/

namespace RoomWatch

/-- A text of two parts is cut inside the first one, or behind it. -/
theorem append_eq_append_cases {α : Type} {xs ys cs rest : List α} (h : cs ++ rest = xs ++ ys) :
    (∃ left, left ≠ [] ∧ cs ++ left = xs) ∨ ∃ more, cs = xs ++ more ∧ more ++ rest = ys := by
  rcases List.append_eq_append_iff.1 h with ⟨left, hleft, hrest⟩ | ⟨more, hmore, hrest⟩
  · by_cases hnil : left = []
    · subst hnil
      rw [List.append_nil] at hleft
      rw [List.nil_append] at hrest
      exact .inr ⟨[], by rw [List.append_nil, hleft], hrest⟩
    · exact .inl ⟨left, hnil, hleft.symm⟩
  · exact .inr ⟨more, hmore, hrest.symm⟩

namespace Number

/-- The first digits of a number are those of a number that is not larger, and not zero unless the
number itself is. -/
theorem exists_toDigits_of_append {n : Nat} {ds rest : List Char}
    (h : ds ++ rest = Nat.toDigits 10 n) (hne : ds ≠ []) :
    ∃ m ≤ n, ds = Nat.toDigits 10 m ∧ (0 < n → 0 < m) := by
  -- the last digit goes first, as in the digits themselves
  induction n using Nat.strongRecOn generalizing rest with
  | ind n ih =>
    rcases List.eq_nil_or_concat rest with rfl | ⟨front, last, rfl⟩
    · rw [List.append_nil] at h
      exact ⟨n, Nat.le_refl n, h, id⟩
    · rw [List.concat_eq_append] at h
      have hpos := List.length_pos_iff.2 hne
      by_cases hlt : n < 10
      · rw [Nat.toDigits_of_lt_base hlt] at h
        have hlength := congrArg List.length h
        simp only [List.length_append, List.length_singleton] at hlength
        omega
      · have hle := Nat.le_of_not_lt hlt
        rw [Nat.toDigits_of_base_le (by decide) hle, ← List.append_assoc] at h
        obtain ⟨hfront, -⟩ := List.append_inj' h rfl
        obtain ⟨m, hm, hdigits, hzero⟩ := ih (n / 10) (by omega) hfront
        have hquotient : 0 < n / 10 := by omega
        exact ⟨m, by omega, hdigits, fun _ => hzero hquotient⟩

theorem Delimited.of_append {cs rest : List Char} (h : Delimited (cs ++ rest)) : Delimited cs := by
  cases cs with
  | nil => exact delimited_nil
  | cons c cs => exact h

theorem chars_natCast (n : Nat) : (Numeral.ofInt n).chars = Nat.toDigits 10 n := by
  simp [Numeral.chars, Numeral.ofInt]

theorem chars_neg_natCast {n : Nat} (hn : 0 < n) :
    (Numeral.ofInt (-n)).chars = '-' :: Nat.toDigits 10 n := by
  have hneg : -(n : Int) < 0 := by omega
  simp only [Numeral.chars, Numeral.ofInt, hneg, decide_true, if_true, List.append_nil,
    Int.natAbs_neg, Int.natAbs_natCast, List.cons_append, List.nil_append]

end Number

namespace Text.Quoted

theorem utf8Size_hexDigit (n : Nat) : (hexDigit n).utf8Size = 1 := by
  have key : ∀ m < 16, (Nat.digitChar m).utf8Size = 1 := by decide
  exact key _ (Nat.mod_lt _ (by decide))

/-- An escape that is cut says nothing yet, and nothing is wrong with it. -/
theorem next_of_append {c : Char} {cs rest : List Char} (h : cs ++ rest = escape c)
    (hne : rest ≠ []) : next cs = .cut := by
  have hpos := List.length_pos_iff.2 hne
  have hlength : cs.length < (escape c).length := by
    rw [← h, List.length_append]
    omega
  have htake : cs = (escape c).take cs.length := by rw [← h, List.take_left]
  rw [htake]
  generalize cs.length = k at hlength
  have hescaped := escaped_escape c
  generalize escape c = ds at hescaped hlength ⊢
  cases hescaped with
  | raw =>
    match k, hlength with
    | 0, _ => rfl
  | short =>
    match k, hlength with
    | 0, _ => rfl
    | 1, _ => rfl
  | unit =>
    match k, hlength with
    | 0, _ => rfl
    | 1, _ => rfl
    | 2, _ => rfl
    | 3, _ => rfl
    | 4, _ => rfl
    | 5, _ =>
      -- one hexadecimal digit is missing
      have hbytes : byteCount ['0', '0', hexDigit (c.toNat / 16)] = 3 := by
        simp only [byteCount, utf8Size_hexDigit]
        rfl
      simp only [List.take, next, afterBackslash, hexUnit, hbytes]
      rfl

theorem scan_of_cut {cs : List Char} (h : next cs = .cut) : scan cs = .cut := by
  rw [scan]
  split <;> simp_all

/-- **A quoted text that is cut** is seen to be cut, wherever the cut is. -/
theorem scan_of_append {s cs rest : List Char} (h : cs ++ rest = encode s ++ ['"'])
    (hne : rest ≠ []) : scan cs = .cut := by
  induction s generalizing cs with
  | nil =>
    have hnil : cs = [] := by
      have hlength := congrArg List.length h
      have hpos := List.length_pos_iff.2 hne
      simp only [encode, List.flatMap_nil, List.nil_append, List.length_append,
        List.length_singleton] at hlength
      exact List.length_eq_zero_iff.1 (by omega)
    rw [hnil, scan]
    rfl
  | cons c s ih =>
    have hsplit : cs ++ rest = escape c ++ (encode s ++ ['"']) := by
      rw [h]
      simp [encode]
    -- the cut is inside the first character's escape, or behind it
    rcases append_eq_append_cases hsplit with ⟨left, hleft, hescape⟩ | ⟨more, rfl, hmore⟩
    · exact scan_of_cut (next_of_append hescape hleft)
    · rw [scan_of_char (next_escape c more), ih hmore]
      rfl

end Text.Quoted

namespace Wire

open Text Number

/-- What a token is read as when its text is cut. -/
inductive Token.Cut : Token → List Token → Prop where
  /-- Nothing of it is left. -/
  | nothing (t : Token) : Cut t []
  | text (s : String) : Cut (.text s) [.defect .cutText]
  | null : Cut .null [.defect .cutNull]
  | bool (b : Bool) : Cut (.bool b) [.defect .cutBool]
  /-- Only the sign of an integer is left. -/
  | sign (n : Int) : Cut (.number (.ofInt n)) [.defect .cutNumber]
  /-- Some of the digits of an integer are left. -/
  | digits {n m : Int} (hlow : min 0 n ≤ m) (hhigh : m ≤ max 0 n) :
    Cut (.number (.ofInt n)) [.number (.ofInt m)]

/-- What tokens are read as when their text is cut: those in front of the cut, and what is left of
the token at the cut. -/
inductive Cut : List Token → List Token → Prop where
  | here {t : Token} {us : List Token} (h : t.Cut us) (ts : List Token) : Cut (t :: ts) us
  | later {ts us : List Token} (t : Token) (h : Cut ts us) : Cut (t :: ts) (t :: us)

/-! ## One token -/

theorem readWord_of_append {word cs rest : List Char} (h : cs ++ rest = word) (hne : rest ≠ []) :
    readWord word cs = .cut := by
  subst h
  induction cs with
  | nil =>
    obtain ⟨c, cs, rfl⟩ := List.exists_cons_of_ne_nil hne
    rfl
  | cons c cs ih =>
    rw [List.cons_append, readWord, if_pos rfl]
    exact ih

theorem lex_ofInt (n : Int) : lex (Numeral.ofInt n).chars = [.number (.ofInt n)] := by
  have hlex := lex_token (.number (spelled_ofInt n)) (fun _ => delimited_nil)
  rwa [List.append_nil, lex] at hlex

theorem cut_natural {n : Nat} {cs rest : List Char} (h : cs ++ rest = Nat.toDigits 10 n) :
    (Token.number (.ofInt n)).Cut (lex cs) := by
  by_cases hcs : cs = []
  · subst hcs
    rw [lex]
    exact .nothing _
  · obtain ⟨m, hm, rfl, -⟩ := exists_toDigits_of_append h hcs
    have hlex := lex_ofInt m
    rw [chars_natCast] at hlex
    rw [hlex]
    exact .digits (by omega) (by omega)

theorem cut_negative {n : Nat} (hn : 0 < n) {cs rest : List Char}
    (h : cs ++ rest = '-' :: Nat.toDigits 10 n) : (Token.number (.ofInt (-n))).Cut (lex cs) := by
  cases cs with
  | nil =>
    rw [lex]
    exact .nothing _
  | cons c cs =>
    obtain ⟨rfl, hdigits⟩ := List.cons_eq_cons.1 h
    by_cases hcs : cs = []
    · subst hcs
      have hlex : lex ['-'] = [.defect .cutNumber] := lex_of_defect rfl (by rfl)
      rw [hlex]
      exact .sign _
    · obtain ⟨m, hm, rfl, hpos⟩ := exists_toDigits_of_append hdigits hcs
      have hlex := lex_ofInt (-m)
      rw [chars_neg_natCast (hpos hn)] at hlex
      rw [hlex]
      exact .digits (by omega) (by omega)

/-- **A token that is cut.** -/
theorem cut_token {t : Token} (ht : t.Legible) {cs rest : List Char} (h : cs ++ rest = t.chars)
    (hne : rest ≠ []) : t.Cut (lex cs) := by
  cases cs with
  | nil =>
    rw [lex]
    exact .nothing t
  | cons c cs =>
    have hpos := List.length_pos_iff.2 hne
    have hlength := congrArg List.length h
    rw [List.length_append, List.length_cons] at hlength
    cases t with
    | null =>
      obtain ⟨rfl, hword⟩ := List.cons_eq_cons.1 h
      have hlex : lex ('n' :: cs) = [.defect .cutNull] := lex_of_defect rfl
        (congrArg (firstToken.word .null .cutNull) (readWord_of_append hword hne))
      rw [hlex]
      exact .null
    | bool b =>
      have hlex : lex (c :: cs) = [.defect .cutBool] := by
        cases b with
        | true =>
          obtain ⟨rfl, hword⟩ := List.cons_eq_cons.1 h
          exact lex_of_defect rfl
            (congrArg (firstToken.word (.bool true) .cutBool) (readWord_of_append hword hne))
        | false =>
          obtain ⟨rfl, hword⟩ := List.cons_eq_cons.1 h
          exact lex_of_defect rfl
            (congrArg (firstToken.word (.bool false) .cutBool) (readWord_of_append hword hne))
      rw [hlex]
      exact .bool b
    | number x =>
      obtain ⟨n, rfl⟩ := ht
      by_cases hn : n < 0
      · obtain ⟨k, rfl⟩ : ∃ k : Nat, n = -k := ⟨n.natAbs, by omega⟩
        have hk : 0 < k := by omega
        exact cut_negative hk (h.trans (chars_neg_natCast hk))
      · obtain ⟨k, rfl⟩ : ∃ k : Nat, n = k := ⟨n.natAbs, by omega⟩
        exact cut_natural (h.trans (chars_natCast k))
    | text s =>
      obtain ⟨rfl, htext⟩ := List.cons_eq_cons.1 h
      have hscan := Quoted.scan_of_append htext hne
      have hlex : lex ('"' :: cs) = [.defect .cutText] :=
        lex_of_defect rfl (by simp only [firstToken, hscan])
      rw [hlex]
      exact .text s
    | defect d => exact ht.elim
    | _ =>
      -- a single character is not cut
      simp only [Token.chars, List.length_singleton] at hlength
      omega

/-! ## Lists of tokens -/

/-- **A cut text is read as cut tokens.** -/
theorem cut_written {ts : List Token} (h : Readable ts) {cs rest : List Char}
    (hcs : cs ++ rest = written ts) (hne : rest ≠ []) : Cut ts (lex cs) := by
  induction ts generalizing cs with
  | nil => exact absurd (List.append_eq_nil_iff.1 hcs).2 hne
  | cons t ts ih =>
    have ht : t.Legible := h.legible t List.mem_cons_self
    have htail : Readable ts := ⟨(List.forall_mem_cons.1 h.legible).2, h.apart.of_cons⟩
    have hwritten : written (t :: ts) = t.chars ++ written ts := List.flatMap_cons
    rw [hwritten] at hcs
    rcases append_eq_append_cases hcs with ⟨left, hleft, htoken⟩ | ⟨more, rfl, hmore⟩
    · exact .here (cut_token ht htoken hleft) ts
    · -- the token is whole, and a number among the cut tokens is not made longer by what follows
      have hnext : t.IsNumber → Delimited more := by
        intro hn
        have hdelimited : Delimited (written ts ++ []) :=
          delimited_written h hn fun _ => delimited_nil
        rw [List.append_nil, ← hmore] at hdelimited
        exact hdelimited.of_append
      rw [lex_token (spelled_chars ht) hnext]
      exact .later t (ih htail hmore)

/-- Tokens of two parts are cut in the first one, or in the second one. -/
theorem Cut.append_cases {ts vs us : List Token} (h : Cut (ts ++ vs) us) :
    Cut ts us ∨ ∃ ws, us = ts ++ ws ∧ Cut vs ws := by
  induction ts generalizing us with
  | nil => exact .inr ⟨us, rfl, h⟩
  | cons t ts ih =>
    cases h with
    | here h => exact .inl (.here h ts)
    | later _ h =>
      rcases ih h with hfirst | ⟨ws, rfl, hsecond⟩
      · exact .inl (.later t hfirst)
      · exact .inr ⟨ws, rfl, hsecond⟩

end Wire

end RoomWatch
