import Mathlib.Data.List.Chain
import RoomWatch.Proofs.Number.Literals
import RoomWatch.Proofs.Text.Glyphs
import RoomWatch.Wire.Token

/-!
# Spellings of tokens

A text spells a list of tokens if it consists of a spelling of each of them, one after another, with
any blanks before, between and behind them (`Spells`). A quoted text with a surrogate that lacks its
partner is a token too, the only defect that has a spelling.

* `lex_token`: a spelled token is read as that token, whatever follows it.
* `lex_spells_append`: so are tokens that are spelled at the front of a text.
* `lex_spells`: **a text is read as the tokens that it spells.**
-/

namespace RoomWatch.Wire

open Text Number

namespace Token

/-- Whether a token is a number. -/
def IsNumber : Token → Prop
  | .number _ => True
  | _ => False

/-- A token that has one spelling only. -/
def Fixed : Token → Prop
  | .number _ | .text _ | .defect _ => False
  | _ => True

/-- The characters that spell a token. -/
inductive Spelled : Token → List Char → Prop where
  | fixed {t : Token} (h : t.Fixed) : Spelled t t.chars
  | number {x : Numeral} {cs : List Char} (h : x.Spelled cs) : Spelled (.number x) cs
  | text {s : String} {gs : List Quoted.Glyph} {cs : List Char} (h : Quoted.Spelled gs cs)
    (hs : Quoted.denoted? gs = some s.toList) : Spelled (.text s) ('"' :: (cs ++ ['"']))
  | unpaired {gs : List Quoted.Glyph} {cs : List Char} (h : Quoted.Spelled gs cs)
    (hs : Quoted.denoted? gs = none) : Spelled (.defect .unpaired) ('"' :: (cs ++ ['"']))

end Token

/-- **A text spells tokens**, with any blanks between them. -/
inductive Spells : List Token → List Char → Prop where
  | nil {gap : List Char} (hgap : ∀ c ∈ gap, isBlank c = true) : Spells [] gap
  | cons {t : Token} {ts : List Token} {gap cs ds : List Char} (hgap : ∀ c ∈ gap, isBlank c = true)
    (first : t.Spelled cs) (more : Spells ts ds) : Spells (t :: ts) (gap ++ (cs ++ ds))

/-- No number stands directly in front of another one. -/
abbrev Apart (ts : List Token) : Prop := ts.IsChain fun t u => t.IsNumber → ¬u.IsNumber

theorem apart_cons {t : Token} {ts : List Token} (ht : ¬t.IsNumber) (h : Apart ts) :
    Apart (t :: ts) :=
  List.isChain_cons.2 ⟨fun _ _ hn => absurd hn ht, h⟩

/-! ## One token -/

theorem readWord_append (word rest : List Char) : readWord word (word ++ rest) = .closed rest := by
  induction word with
  | nil => rfl
  | cons c word ih =>
    rw [List.cons_append, readWord, if_pos rfl]
    exact ih

theorem firstToken_number {x : Numeral} {cs rest : List Char} (h : x.Spelled cs)
    (hrest : Delimited rest) : firstToken (cs ++ rest) = (.number x, rest) := by
  have hscan := scan_spelled h hrest
  obtain ⟨c, ds, rfl, hc⟩ := h.exists_cons
  rw [List.cons_append] at hscan ⊢
  unfold firstToken
  -- no other token starts with a minus or a digit
  split
  case h_11 heq =>
    cases heq
    have hstart : (decide (c = '-') || c.isDigit) = true := by simpa using hc
    rw [if_pos hstart, hscan]
  case h_12 heq => cases heq
  all_goals
    next heq =>
      cases heq
      exact absurd hc (by decide)

theorem firstToken_fixed {t : Token} (h : t.Fixed) (rest : List Char) :
    firstToken (t.chars ++ rest) = (t, rest) := by
  cases t with
  | null => exact congrArg (firstToken.word .null .cutNull) (readWord_append ['u', 'l', 'l'] rest)
  | bool b =>
    cases b with
    | true =>
      have hword := readWord_append ['r', 'u', 'e'] rest
      exact congrArg (firstToken.word (.bool true) .cutBool) hword
    | false =>
      have hword := readWord_append ['a', 'l', 's', 'e'] rest
      exact congrArg (firstToken.word (.bool false) .cutBool) hword
  | number x => exact h.elim
  | text s => exact h.elim
  | defect d => exact h.elim
  | _ => rfl

theorem firstToken_spelled {t : Token} {cs rest : List Char} (h : t.Spelled cs)
    (hrest : t.IsNumber → Delimited rest) : firstToken (cs ++ rest) = (t, rest) := by
  cases h with
  | fixed h => exact firstToken_fixed h rest
  | number h => exact firstToken_number h (hrest trivial)
  | @text s gs cs h hs =>
    have hscan := Quoted.scan_spelled h rest
    rw [hs] at hscan
    simp only [List.cons_append, List.append_assoc, List.nil_append, firstToken, hscan,
      Quoted.literal, String.ofList_toList]
  | @unpaired gs cs h hs =>
    have hscan := Quoted.scan_spelled h rest
    rw [hs] at hscan
    simp only [List.cons_append, List.append_assoc, List.nil_append, firstToken, hscan,
      Quoted.literal]

/-- A digit is no blank. -/
theorem isBlank_of_number {c : Char} (h : c = '-' ∨ c.isDigit = true) : isBlank c = false := by
  rcases h with rfl | h
  · rfl
  · unfold isBlank
    by_contra hblank
    simp only [Bool.not_eq_false, Bool.or_eq_true, decide_eq_true_eq] at hblank
    rcases hblank with ((rfl | rfl) | rfl) | rfl <;> revert h <;> decide

/-- A spelling starts with a character that is no blank and does not go on with a number in front of
it, unless it is that of a number. -/
theorem Token.Spelled.exists_cons {t : Token} {cs : List Char} (h : t.Spelled cs) :
    ∃ c ds, cs = c :: ds ∧ isBlank c = false ∧ (¬t.IsNumber → Delimited cs) := by
  cases h with
  | fixed h =>
    cases t with
    | number x => exact h.elim
    | text s => exact h.elim
    | defect d => exact h.elim
    | bool b => cases b <;> exact ⟨_, _, rfl, rfl, by rintro - c ⟨⟩; decide⟩
    | _ => exact ⟨_, _, rfl, rfl, by rintro - c ⟨⟩; decide⟩
  | number h =>
    obtain ⟨c, ds, rfl, hc⟩ := h.exists_cons
    exact ⟨c, ds, rfl, isBlank_of_number hc, fun hn => absurd trivial hn⟩
  | text h => exact ⟨_, _, rfl, rfl, by rintro - c ⟨⟩; decide⟩
  | unpaired h => exact ⟨_, _, rfl, rfl, by rintro - c ⟨⟩; decide⟩

/-- **A spelled token is read as that token.** -/
theorem lex_token {t : Token} {cs rest : List Char} (h : t.Spelled cs)
    (hrest : t.IsNumber → Delimited rest) : lex (cs ++ rest) = t :: lex rest := by
  have hfirst := firstToken_spelled h hrest
  obtain ⟨c, ds, rfl, hblank, -⟩ := h.exists_cons
  rw [List.cons_append] at hfirst ⊢
  rw [lex, if_neg (by simp [hblank]), hfirst]

/-- A defect behind which nothing can be read is the last token. -/
theorem lex_of_defect {c : Char} {cs : List Char} {d : Defect} (hblank : isBlank c = false)
    (h : firstToken (c :: cs) = (.defect d, [])) : lex (c :: cs) = [.defect d] := by
  rw [lex, if_neg (by simp [hblank]), h, lex]

/-! ## Whole texts -/

theorem lex_blanks {gap : List Char} (hgap : ∀ c ∈ gap, isBlank c = true) (rest : List Char) :
    lex (gap ++ rest) = lex rest := by
  induction gap with
  | nil => rfl
  | cons c gap ih =>
    obtain ⟨hc, hgap⟩ := List.forall_mem_cons.1 hgap
    rw [List.cons_append, lex, if_pos hc, ih hgap]

theorem lex_eq_nil {gap : List Char} (hgap : ∀ c ∈ gap, isBlank c = true) : lex gap = [] := by
  have hlex := lex_blanks hgap []
  rwa [List.append_nil, lex] at hlex

theorem delimited_blanks {gap rest : List Char} (hgap : ∀ c ∈ gap, isBlank c = true)
    (hrest : Delimited rest) : Delimited (gap ++ rest) := by
  cases gap with
  | nil => exact hrest
  | cons c gap =>
    rintro d ⟨⟩
    have hc := hgap c List.mem_cons_self
    unfold isBlank at hc
    simp only [Bool.or_eq_true, decide_eq_true_eq] at hc
    rcases hc with ((rfl | rfl) | rfl) | rfl <;> decide

/-- What is spelled behind a number does not go on with it. -/
theorem delimited_spells {t : Token} {ts : List Token} {cs rest : List Char} (h : Spells ts cs)
    (hapart : Apart (t :: ts)) (hn : t.IsNumber) (hrest : Delimited rest) :
    Delimited (cs ++ rest) := by
  cases h with
  | nil hgap => exact delimited_blanks hgap hrest
  | cons hgap first more =>
    obtain ⟨c, ds, rfl, -, hdelimited⟩ := first.exists_cons
    have hnext := (List.isChain_cons_cons.1 hapart).1 hn
    rw [List.append_assoc, List.append_assoc]
    exact delimited_blanks hgap ((hdelimited hnext).append (List.cons_ne_nil _ _))

/-- A text that spells tokens is read as these, and then what follows it. -/
theorem lex_spells_append {ts : List Token} {cs rest : List Char} (h : Spells ts cs)
    (hapart : Apart ts) (hrest : Delimited rest) : lex (cs ++ rest) = ts ++ lex rest := by
  induction h with
  | nil hgap => exact lex_blanks hgap rest
  | @cons t ts gap cs ds hgap first more ih =>
    have hnext : t.IsNumber → Delimited (ds ++ rest) := fun hn =>
      delimited_spells more hapart hn hrest
    rw [List.append_assoc, List.append_assoc, lex_blanks hgap, lex_token first hnext,
      ih hapart.of_cons]
    rfl

/-- **A text is read as the tokens that it spells**, whatever the blanks between them are. -/
theorem lex_spells {ts : List Token} {cs : List Char} (h : Spells ts cs) (hapart : Apart ts) :
    lex cs = ts := by
  have hlex := lex_spells_append h hapart delimited_nil
  rwa [List.append_nil, lex, List.append_nil] at hlex

end RoomWatch.Wire
