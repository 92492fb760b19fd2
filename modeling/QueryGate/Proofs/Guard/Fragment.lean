import QueryGate.Proofs.Calendar.Written
import QueryGate.Proofs.Guard.Wording
import QueryGate.Proofs.Sql.Printing

/-!
# Pieces of a statement

A fragment is a quiet text that reads as given tokens, with or without its blanks collapsed.
Fragments with a space or a line break between them make up a fragment.  The numbers and the days
that are filled into a text are fragments whatever their digits.
-/

namespace QueryGate
namespace Guard

open Sql Text

/-- A quiet text with its tokens, which have no blanks to collapse. -/
structure Fragment (cs : List Char) (ts : List Token) : Prop where
  reads : tokensFrom 0 cs = some ts
  settled : ts.map Token.collapsed = ts
  quiet : isQuiet cs = true

instance (cs : List Char) (ts : List Token) : Decidable (Fragment cs ts) :=
  decidable_of_iff
    (tokensFrom 0 cs = some ts ∧ ts.map Token.collapsed = ts ∧ isQuiet cs = true)
    ⟨fun h => ⟨h.1, h.2.1, h.2.2⟩, fun h => ⟨h.1, h.2, h.3⟩⟩

namespace Fragment

variable {a b : List Char} {ta tb : List Token}

theorem tokenize_collapse (h : Fragment a ta) : tokenize (collapse a) = .ok ta := by
  rw [tokenize_eq_ok_iff, tokensFrom_collapse, h.reads, Option.map_some, h.settled]

/-- Two fragments with a space or a line break between them. -/
theorem append {c : Char} (ha : Fragment a ta) (hb : Fragment b tb)
    (hc : c = ' ' ∨ c = '\n') : Fragment (a ++ c :: b) (ta ++ tb) := by
  have hblank : isBlank c = true := by rcases hc with rfl | rfl <;> decide
  have hdivides : divides c = true := by rcases hc with rfl | rfl <;> decide
  refine ⟨?_, ?_, ?_⟩
  · have hbreak : breaksOff (c :: b) = true := by simp [breaksOff, startsBlank, hblank]
    have hreads : tokensFrom (0 + 0) (a ++ c :: b) = _ := tokensFrom_append hbreak ha.reads
    rw [hreads, tokensFrom_blank hblank, hb.reads]
    rfl
  · rw [List.map_append, ha.settled, hb.settled]
  · rw [isQuiet_append_cons hdivides, ha.quiet, hb.quiet]
    rfl

theorem nil : Fragment [] [] :=
  ⟨by simp [tokensFrom_nil], rfl, by decide⟩

end Fragment

/-! ### Numbers -/

section Digits

variable {ds : List Char} (hds : ∀ c ∈ ds, isAsciiDigit c = true)
include hds

theorem firstToken?_of_digits {d : Char} {r : List Char} (h : d :: r = ds) :
    firstToken? d r = some (.number ds) := by
  have hd : isAsciiDigit d = true := hds d (by simp [← h])
  rw [firstToken?_digit hd, h, numberAt_digits hds]

theorem tokensFrom_digits (hne : ds ≠ []) (depth : Nat) :
    tokensFrom depth ds = if depth = 0 then some [.number ds] else none := by
  obtain ⟨d, r, h⟩ := List.exists_cons_of_ne_nil hne
  have hd : isAsciiDigit d = true := hds d (by simp [h])
  have hbehind : behind (.number ds) r = [] := by
    unfold behind
    rw [Token.written, h]
    simp
  have hdepth : depthBehind? depth (.number ds) = some depth := by simp [depthBehind?]
  have hread := tokensFrom_step (firstToken?_of_digits hds h.symm) hbehind
    (not_isBlank_of_isAsciiDigit hd) hdepth
  rw [← h, tokensFrom_nil] at hread
  rw [hread]
  split <;> rfl

theorem wordsOf_digits : wordsOf ds = [ds] := by
  refine wordsOf_of_all ?_
  intro c hc
  have hrange := (isAsciiDigit_iff c).mp (hds c hc)
  have hsmall : c.toNat < 128 := by omega
  exact forall_ascii (p := fun c => isAsciiDigit c = true → isWordChar c = true)
    (by decide) hsmall (hds c hc)

/-- No forbidden word is made of digits. -/
theorem not_forbidden_digits (hne : ds ≠ []) : ds.map Char.toLower ∉ forbiddenLetters := by
  obtain ⟨d, r, rfl⟩ := List.exists_cons_of_ne_nil hne
  have hd := hds d (by simp)
  have hlower : isAsciiDigit d.toLower = true := by
    have hsmall : d.toNat < 128 := by
      have := (isAsciiDigit_iff d).mp hd
      omega
    exact forall_ascii (p := fun c => isAsciiDigit c = true → isAsciiDigit c.toLower = true)
      (by decide) hsmall hd
  have hnone : ∀ w ∈ forbiddenLetters, w.head?.any isAsciiDigit = false := by decide
  intro hmem
  have hfirst : isAsciiDigit d.toLower = false := hnone _ hmem
  rw [hfirst] at hlower
  cases hlower

theorem isQuietChar_of_digits : ds.all isQuietChar = true := by
  rw [List.all_eq_true]
  intro c hc
  have hrange := (isAsciiDigit_iff c).mp (hds c hc)
  have hsmall : c.toNat < 128 := by omega
  exact forall_ascii (p := fun c => isAsciiDigit c = true → isQuietChar c = true)
    (by decide) hsmall (hds c hc)

omit hds in
theorem containsText_dashes_append {cs : List Char} (h : '-' ∉ cs) (r : List Char) :
    containsText ['-', '-'] (cs ++ r) = containsText ['-', '-'] r := by
  induction cs with
  | nil => rfl
  | cons c cs ih =>
    have hc : ('-' == c) = false := by simpa using (List.ne_of_not_mem_cons h)
    simp [containsText, List.isPrefixOf, hc, ih (List.not_mem_of_not_mem_cons h)]

theorem dash_not_mem_digits : '-' ∉ ds := by
  intro hmem
  have := hds _ hmem
  revert this
  decide

theorem isQuiet_digits (hne : ds ≠ []) : isQuiet ds = true := by
  have hdash := containsText_dashes_append (dash_not_mem_digits hds) []
  rw [List.append_nil] at hdash
  unfold isQuiet
  rw [isQuietChar_of_digits hds, hdash, wordsOf_digits hds]
  simp [containsText, not_forbidden_digits hds hne]

/-- A number in digits is a fragment. -/
theorem fragment_digits (hne : ds ≠ []) : Fragment ds [.number ds] :=
  ⟨tokensFrom_digits hds hne 0, rfl, isQuiet_digits hds hne⟩

end Digits

theorem fragment_nat (n : Nat) :
    Fragment (toString n).toList [.number (Nat.toDigits 10 n)] := by
  rw [toList_toString]
  exact fragment_digits (fun c => isAsciiDigit_of_mem_toDigits) Nat.toDigits_ne_nil

/-! ### Days -/

/-- Three runs of digits with hyphens between them are quiet. -/
theorem isQuiet_hyphenated {x y z : List Char} (hx : ∀ c ∈ x, isAsciiDigit c = true)
    (hy : ∀ c ∈ y, isAsciiDigit c = true) (hz : ∀ c ∈ z, isAsciiDigit c = true) (hx0 : x ≠ [])
    (hy0 : y ≠ []) (hz0 : z ≠ []) : isQuiet (x ++ '-' :: y ++ '-' :: z) = true := by
  have hdash {ds r : List Char} (hds : ∀ c ∈ ds, isAsciiDigit c = true) (hne : ds ≠ []) :
      containsText ['-', '-'] ('-' :: (ds ++ r)) = containsText ['-', '-'] r := by
    obtain ⟨d, more, rfl⟩ := List.exists_cons_of_ne_nil hne
    have hd : ('-' == d) = false := by
      simpa using (List.ne_of_not_mem_cons (dash_not_mem_digits hds))
    have hrest := containsText_dashes_append (dash_not_mem_digits hds) r
    rw [containsText, hrest]
    simp [List.isPrefixOf, hd]
  have hno : containsText ['-', '-'] (x ++ '-' :: (y ++ '-' :: (z ++ []))) = false := by
    rw [containsText_dashes_append (dash_not_mem_digits hx), hdash hy hy0, hdash hz hz0]
    rfl
  have hword : isWordChar '-' = false := by decide
  rw [List.append_nil] at hno
  unfold isQuiet
  rw [List.append_assoc, List.cons_append, hno, wordsOf_append_cons hword,
    wordsOf_append_cons hword, wordsOf_digits hx, wordsOf_digits hy, wordsOf_digits hz]
  simp [isQuietChar_of_digits hx, isQuietChar_of_digits hy, isQuietChar_of_digits hz,
    not_forbidden_digits hx hx0, not_forbidden_digits hy hy0, not_forbidden_digits hz hz0,
    show isQuietChar '-' = true by decide]

theorem isQuiet_isoChars (d : Date) : isQuiet d.isoChars = true :=
  isQuiet_hyphenated (Date.padded_digits _ _) (Date.padded_digits _ _) (Date.padded_digits _ _)
    (Date.padded_ne_nil _ _) (Date.padded_ne_nil _ _) (Date.padded_ne_nil _ _)

/-- The function that turns a day into seconds since the epoch. -/
def timestampName : List Char :=
  ['U', 'N', 'I', 'X', '_', 'T', 'I', 'M', 'E', 'S', 'T', 'A', 'M', 'P']

/-- A day in quotes as the argument of the function. -/
def timestampChars (d : Date) : List Char :=
  timestampName ++ '(' :: '\'' :: (d.isoChars ++ ['\'', ')'])

/-- The tokens of a timestamp. -/
def timestamp (d : Date) : List Token :=
  [.word timestampName, .lparen, .literal .single d.isoChars, .rparen]

theorem quote_not_mem_isoChars (d : Date) : '\'' ∉ d.isoChars := by
  intro h
  rcases Date.mem_isoChars h with h | h <;> revert h <;> decide

theorem collapse_of_no_blank {cs : List Char} (h : ∀ c ∈ cs, isBlank c = false) :
    collapse cs = cs := by
  have happ := collapse_append h []
  simpa using happ

theorem tokensFrom_timestampChars (d : Date) :
    tokensFrom 0 (timestampChars d) = some (timestamp d) := by
  have hword (r : List Char) : firstToken? 'U' (timestampName.tail ++ '(' :: r) =
      some (.word timestampName) := by rfl
  have hbehind (r : List Char) : behind (.word timestampName) (timestampName.tail ++ '(' :: r) =
      '(' :: r := by rfl
  have hopen (r : List Char) : firstToken? '(' r = some .lparen := by rfl
  have hliteral : firstToken? '\'' (d.isoChars ++ ['\'', ')']) =
      some (.literal .single d.isoChars) := by
    have hbody := literalBody?_doubled_append '\'' d.isoChars (r := [')']) (by decide)
    rw [doubled_of_not_mem (quote_not_mem_isoChars d)] at hbody
    simp [firstToken?, Token.nameQuote, hbody]
  have hclose : behind (.literal .single d.isoChars) (d.isoChars ++ ['\'', ')']) = [')'] := by
    simp [behind, Token.written]
  have hend : tokensFrom 1 [')'] = some [.rparen] := by decide +kernel
  have hday : tokensFrom 1 ('\'' :: (d.isoChars ++ ['\'', ')'])) =
      some [.literal .single d.isoChars, .rparen] := by
    have hstay : depthBehind? 1 (.literal .single d.isoChars) = some 1 := rfl
    rw [tokensFrom_step hliteral hclose (by decide) hstay, hend]
    rfl
  have hargument : tokensFrom 0 ('(' :: '\'' :: (d.isoChars ++ ['\'', ')'])) =
      some [.lparen, .literal .single d.isoChars, .rparen] := by
    have hdeeper : depthBehind? 0 .lparen = some 1 := rfl
    rw [tokensFrom_step (hopen _) rfl (by decide) hdeeper]
    exact congrArg (Option.map (Token.lparen :: ·)) hday
  have hstay : depthBehind? 0 (.word timestampName) = some 0 := rfl
  show tokensFrom 0 ('U' :: (timestampName.tail ++ '(' :: _)) = _
  rw [tokensFrom_step (hword _) (hbehind _) (by decide) hstay, hargument]
  rfl

theorem fragment_timestamp (d : Date) : Fragment (timestampChars d) (timestamp d) := by
  refine ⟨tokensFrom_timestampChars d, ?_, ?_⟩
  · have hblank : ∀ c ∈ d.isoChars, isBlank c = false := by
      intro c hc
      rcases Date.mem_isoChars hc with h | rfl
      · exact not_isBlank_of_isAsciiDigit h
      · decide
    simp [timestamp, Token.collapsed, collapse_of_no_blank hblank]
  · have hquote : divides '\'' = true := by decide
    have hopen : isQuiet (timestampName ++ ['(']) = true := by decide
    have hclose : isQuiet [')'] = true := by decide
    have hsplit : timestampChars d =
        (timestampName ++ ['(']) ++ '\'' :: (d.isoChars ++ '\'' :: [')']) := by
      simp [timestampChars]
    rw [hsplit, isQuiet_append_cons hquote, isQuiet_append_cons hquote, hopen, hclose,
      isQuiet_isoChars]
    rfl

end Guard
end QueryGate
