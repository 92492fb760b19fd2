import Mathlib.Data.List.TakeWhile
import QueryGate.Proofs.Sql.DoubledQuotes
import QueryGate.Proofs.Text.Places

/-!
# Tokens with single spaces between them

What is written for a token of a text is read as that token when it stands alone, and a blank
behind it does not change that.  So the tokens of a text, written with single spaces between them,
are a text with the same tokens.
-/

namespace QueryGate
namespace Sql

open Text

/-! ### A token alone -/

/-- Whether what is written for a token is read as the token and nothing more. -/
def Token.isWhole (t : Token) : Prop := ∃ c r, t.written = c :: r ∧ firstToken? c r = some t

theorem firstToken?_of_not_mem_quotes {c : Char} (h : c ∉ quotes) (r : List Char) :
    firstToken? c r =
      if isAsciiDigit c then some (.number (numberAt (c :: r)))
      else if isWordStart c then some (.word (c :: r.takeWhile isWordPart)) else symbol? c r := by
  simp only [quotes, List.mem_cons, List.not_mem_nil, or_false, not_or] at h
  rw [firstToken?, if_neg h.2.2, if_neg h.1, if_neg h.2.1]

theorem not_isBlank_of_firstToken? {c : Char} {r : List Char} {t : Token}
    (h : firstToken? c r = some t) : isBlank c = false := by
  obtain ⟨hne, rest, hrest⟩ := written_append_of_firstToken? h
  obtain ⟨d, more, hwritten⟩ := List.exists_cons_of_ne_nil hne
  rw [hwritten, List.cons_append, List.cons.injEq] at hrest
  have hmem : c ∈ t.written := by
    rw [hwritten, hrest.1]
    exact List.mem_cons_self
  rcases not_isBlank_of_mem_written h hmem with hblank | ⟨name, rfl⟩ | ⟨quote, body, rfl⟩
  · exact hblank
  · rw [hrest.1, ← (List.cons.inj hwritten).1]
    decide
  · rw [hrest.1, ← (List.cons.inj hwritten).1]
    cases quote <;> decide

theorem not_isWordStart_of_isAsciiDigit {c : Char} (h : isAsciiDigit c = true) :
    isWordStart c = false := by
  rw [isAsciiDigit_iff] at h
  rw [Bool.eq_false_iff, ne_eq, isWordStart, Bool.or_eq_true, isAlpha_iff, beq_iff_eq]
  rintro (hletter | rfl)
  · omega
  · revert h
    decide

theorem firstToken?_digit {c : Char} (h : isAsciiDigit c = true) (r : List Char) :
    firstToken? c r = some (.number (numberAt (c :: r))) := by
  rw [firstToken?_of_not_mem_quotes (not_mem_quotes (by decide) h), if_pos h]

theorem firstToken?_wordStart {c : Char} (h : isWordStart c = true) (r : List Char) :
    firstToken? c r = some (.word (c :: r.takeWhile isWordPart)) := by
  have hdigit : ¬isAsciiDigit c = true := by
    intro hdigit
    rw [not_isWordStart_of_isAsciiDigit hdigit] at h
    cases h
  rw [firstToken?_of_not_mem_quotes (not_mem_quotes (by decide) h), if_neg hdigit, if_pos h]

/-- A literal ends with its closing quote. -/
theorem literalBody?_doubled_append (q : Char) (plain : List Char) {r : List Char}
    (hr : r.head? ≠ some q) :
    literalBody? q (doubled q plain ++ q :: r) = some (doubled q plain) := by
  induction plain with
  | nil => exact literalBody?_closed hr
  | cons c plain ih =>
    by_cases hc : c = q
    · subst hc
      rw [doubled_cons_quote, List.cons_append, List.cons_append, literalBody?_doubled, ih]
      rfl
    · rw [doubled_cons_of_ne hc, List.cons_append, literalBody?_of_ne hc, ih]
      rfl

theorem numberAt_digits {ds : List Char} (hds : ∀ c ∈ ds, isAsciiDigit c = true) :
    numberAt ds = ds := by
  have htake : (ds ++ []).takeWhile isAsciiDigit = ds := takeWhile_run hds nofun
  have hdrop : (ds ++ []).dropWhile isAsciiDigit = [] := dropWhile_run hds nofun
  rw [List.append_nil] at htake hdrop
  simp only [numberAt, htake, hdrop]

theorem numberAt_point {ds es : List Char} (hds : ∀ c ∈ ds, isAsciiDigit c = true)
    (hes : ∀ c ∈ es, isAsciiDigit c = true) (hne : es ≠ []) :
    numberAt (ds ++ '.' :: es) = ds ++ '.' :: es := by
  have hpoint : ∀ c ∈ ('.' :: es).head?, isAsciiDigit c = false := by
    rintro c ⟨⟩
    decide
  have hplaces : (es ++ []).takeWhile isAsciiDigit = es := takeWhile_run hes nofun
  rw [List.append_nil] at hplaces
  have hempty : es.isEmpty = false := List.isEmpty_eq_false_iff.mpr hne
  simp [numberAt, takeWhile_run hds hpoint, dropWhile_run hds hpoint, hplaces, hempty]

/-- A number is a number to its end. -/
theorem numberAt_numberAt (cs : List Char) : numberAt (numberAt cs) = numberAt cs := by
  have digits (ds : List Char) : ∀ c ∈ ds.takeWhile isAsciiDigit, isAsciiDigit c = true :=
    List.all_eq_true.mp List.all_takeWhile
  generalize hnumber : numberAt cs = found
  unfold numberAt at hnumber
  split at hnumber
  · rename_i r hrest
    simp only at hnumber
    split at hnumber
    · rw [← hnumber]
      exact numberAt_digits (digits cs)
    · rename_i hplaces
      rw [← hnumber]
      exact numberAt_point (digits cs) (digits r) (by simpa using hplaces)
  · rw [← hnumber]
    exact numberAt_digits (digits cs)

/-- A token of a text is read in the same way without what follows it. -/
theorem isWhole_of_firstToken? {c : Char} {r : List Char} {t : Token}
    (h : firstToken? c r = some t) : t.isWhole := by
  cases t with
  | quotedName name =>
    obtain ⟨hnot, hblank⟩ := name_of_firstToken? h
    refine ⟨Token.nameQuote, name ++ [Token.nameQuote], rfl, ?_⟩
    rw [firstToken?, if_pos rfl, quotedName?_append_cons hnot, if_neg (Bool.eq_false_iff.mp hblank)]
  | literal quote body =>
    obtain ⟨plain, rfl⟩ := doubled_of_literalBody? (literalBody?_of_firstToken? h).2
    refine ⟨quote.char, _, rfl, ?_⟩
    have hbody := literalBody?_doubled_append quote.char plain (r := []) (by simp)
    cases quote with
    | single => exact congrArg (Option.map _) hbody
    | double => exact congrArg (Option.map _) hbody
  | number digits =>
    obtain ⟨hc, rfl⟩ := number_of_firstToken? h
    obtain ⟨rest, hrest⟩ := numberAt_eq (c :: r)
    obtain ⟨d, more, hdigits⟩ := List.exists_cons_of_ne_nil (numberAt_ne_nil (r := r) hc)
    rw [hdigits, List.cons_append, List.cons.injEq] at hrest
    obtain ⟨rfl, _⟩ := hrest
    refine ⟨c, more, hdigits, ?_⟩
    rw [firstToken?_digit hc, ← hdigits, numberAt_numberAt]
  | word letters =>
    obtain ⟨hstart, rfl⟩ := word_of_firstToken? h
    refine ⟨c, _, rfl, ?_⟩
    rw [firstToken?_wordStart hstart, List.takeWhile_idem]
  | operator op =>
    cases op <;> exact ⟨_, _, rfl, by decide⟩
  | _ => exact ⟨_, _, rfl, by decide⟩

/-! ### Tokens one after the other -/

theorem toList_writtenText (t : Token) : t.writtenText.toList = t.written := String.toList_ofList

theorem toList_writtenWith_cons (t u : Token) (ts : List Token) :
    (writtenWith " " (t :: u :: ts)).toList =
      t.written ++ ' ' :: (writtenWith " " (u :: ts)).toList := by
  rw [writtenWith, writtenWith, List.map_cons, List.map_cons, String.intercalate_cons_cons,
    String.toList_append, String.toList_append, toList_writtenText, List.append_assoc]
  rfl

/-- A token that is whole is read in front of a blank. -/
theorem tokensFrom_written {t : Token} (ht : t.isWhole) {b : List Char} (hb : breaksOff b = true)
    {depth inner : Nat} (hdepth : depthBehind? depth t = some inner) :
    tokensFrom depth (t.written ++ b) = (tokensFrom inner b).map (t :: ·) := by
  obtain ⟨c, r, hwritten, hfirst⟩ := ht
  have hbehind : behind t (r ++ b) = b := by
    rw [behind, hwritten, List.length_cons, Nat.add_sub_cancel, List.drop_left]
  rw [hwritten, List.cons_append]
  exact tokensFrom_step (firstToken?_append hb hfirst) hbehind (not_isBlank_of_firstToken? hfirst)
    hdepth

/-- Tokens that are whole are read back when they are written with single spaces between them. -/
theorem tokensFrom_writtenWith {depth : Nat} {ts : List Token} (hwhole : ∀ t ∈ ts, t.isWhole)
    (hclosed : depthThrough? depth ts = some 0) :
    tokensFrom depth (writtenWith " " ts).toList = some ts := by
  induction ts generalizing depth with
  | nil =>
    cases hclosed
    show tokensFrom 0 [] = some []
    rw [tokensFrom_nil, if_pos rfl]
  | cons t ts ih =>
    obtain ⟨inner, hinner, hclosed⟩ := Option.bind_eq_some_iff.mp hclosed
    have ht := hwhole t List.mem_cons_self
    have hmore := ih (fun u hu => hwhole u (List.mem_cons_of_mem t hu)) hclosed
    cases ts with
    | nil =>
      have hone : (writtenWith " " [t]).toList = t.written ++ [] := by
        rw [List.append_nil]
        exact toList_writtenText t
      have hnone : (writtenWith " " []).toList = [] := rfl
      rw [hnone] at hmore
      rw [hone, tokensFrom_written ht rfl hinner, hmore]
      rfl
    | cons u ts =>
      have hspace : isBlank ' ' = true := by decide
      have hbreak : breaksOff (' ' :: (writtenWith " " (u :: ts)).toList) = true := hspace
      rw [toList_writtenWith_cons, tokensFrom_written ht hbreak hinner, tokensFrom_blank hspace,
        hmore]
      rfl

/-- Reading undoes writing: the tokens of a text with single spaces between them are a text with
the same tokens. -/
theorem tokenize_writtenWith {cs : List Char} {ts : List Token} (h : tokenize cs = .ok ts) :
    tokenize (writtenWith " " ts).toList = .ok ts := by
  have htokens := tokenize_eq_ok_iff.mp h
  refine tokenize_eq_ok_iff.mpr (tokensFrom_writtenWith ?_ (depthThrough?_of_tokensFrom htokens))
  intro t ht
  obtain ⟨c, r, hfirst⟩ := firstToken?_of_mem htokens ht
  exact isWhole_of_firstToken? hfirst

theorem tokenize_writtenWith_crowdedTokens :
    tokenize crowdedText = .ok (crowdedTokens.map (·.token)) ∧
      tokenize (writtenWith " " (crowdedTokens.map (·.token))).toList =
        .ok (crowdedTokens.map (·.token)) := by
  have htokens : tokenize crowdedText = .ok (crowdedTokens.map (·.token)) := by
    rw [tokenize, scan_crowdedText]
    rfl
  exact ⟨htokens, tokenize_writtenWith htokens⟩

end Sql
end QueryGate
