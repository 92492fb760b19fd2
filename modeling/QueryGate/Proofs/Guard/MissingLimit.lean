import QueryGate.Proofs.Guard.Keywords
import QueryGate.Proofs.Guard.RowBound
import QueryGate.Proofs.Sql.LetterCase
import QueryGate.Statement

/-!
# Missing limits

A limit is put behind a statement whose text does not contain the word `LIMIT`.  The text contains
the word just when one of its tokens does, and that can be a literal, a quoted name or a word with a
dollar sign in it, which opens no clause.  A statement with such a token and without a limit gets
none, and the guard turns it down.
-/

namespace QueryGate
namespace Guard

open Text Sql

/-! ### Words inside tokens -/

/-- The last digit of the number that ends at a place, if the last token before the place is one. -/
def digitBefore? : Option Placed → Nat → Option Char
  | some ⟨start, .number digits⟩, place =>
    if start + digits.length = place then digits.getLast? else none
  | _, _ => none

/-- Whether one of the tokens contains a word; `last` is the token in front of them. -/
def showsWordFrom (word : List Char) : Option Placed → List Placed → Bool
  | _, [] => false
  | last, p :: more =>
    containsWordFrom sameLetter word (digitBefore? last p.offset) p.token.written ||
      showsWordFrom word (some p) more

/-- Whether one of the tokens of a text contains a word.  No word starts right behind a number. -/
def showsWord (word : List Char) (placed : List Placed) : Bool := showsWordFrom word none placed

theorem digitBefore?_of_lt {last : Option Placed} {place : Nat}
    (h : ∀ p, last = some p → p.offset + p.token.written.length < place) :
    digitBefore? last place = none := by
  unfold digitBefore?
  split
  · rename_i start digits
    have hlt : start + digits.length < place := h _ rfl
    rw [if_neg (by omega)]
  · rfl

section Word

variable {word : List Char} (hword : isPlainWord word)
include hword

theorem separates_of_not_isWordChar {c : Char} (hc : isWordChar c = false) :
    Separates sameLetter word c :=
  ⟨hc, fun k hk => not_sameLetter_of_not_isWordChar (hword.2 k hk).1 (hword.2 k hk).2 hc⟩

/-- A word does not reach over the edge of a text. -/
theorem containsWordFrom_append_edge {rest : List Char} (hrest : isWordChar? rest.head? = false)
    (before : Option Char) (a : List Char) :
    containsWordFrom sameLetter word before (a ++ rest) =
      (containsWordFrom sameLetter word before a || containsWordFrom sameLetter word none rest) := by
  cases rest with
  | nil => rw [List.append_nil, not_containsWordFrom_nil hword.1, Bool.or_false]
  | cons d s =>
    have hd := separates_of_not_isWordChar hword hrest
    rw [containsWordFrom_append_cons hd hword.1, containsWordFrom_cons_of_separates hd hword.1]

theorem containsWordFrom_edge_append {a : List Char} (hne : a ≠ [])
    (hlast : isWordChar? a.getLast? = false) (before : Option Char) (rest : List Char) :
    containsWordFrom sameLetter word before (a ++ rest) =
      (containsWordFrom sameLetter word before a || containsWordFrom sameLetter word none rest) := by
  obtain ⟨front, e, rfl⟩ : ∃ front e, a = front ++ [e] :=
    ⟨_, _, (List.dropLast_concat_getLast hne).symm⟩
  rw [List.getLast?_concat] at hlast
  have he := separates_of_not_isWordChar hword hlast
  rw [List.append_assoc, List.singleton_append, containsWordFrom_append_cons he hword.1,
    containsWordFrom_append_cons he hword.1, not_containsWordFrom_nil hword.1, Bool.or_false]

variable (hdigits : ∀ k ∈ word, isAsciiDigit k = false)
include hdigits

theorem absent_of_mem_numberAt {cs : List Char} :
    ∀ c ∈ numberAt cs, ∀ k ∈ word, sameLetter k c = false := by
  intro c hc k hk
  obtain ⟨hsmall, hchar⟩ := hword.2 k hk
  rcases mem_numberAt hc with hdigit | rfl
  · exact not_sameLetter_of_isAsciiDigit hsmall (hdigits k hk) hdigit
  · exact not_sameLetter_of_not_isWordChar hsmall hchar (by decide)

/-- A word stands in the first token of a text or behind it. -/
theorem containsWordFrom_token {c : Char} {r : List Char} {t : Token}
    (ht : firstToken? c r = some t) (hnext : readsOn (behind t r)) (offset : Nat)
    (before : Option Char) :
    containsWordFrom sameLetter word before (c :: r) =
      (containsWordFrom sameLetter word before t.written ||
        containsWordFrom sameLetter word
          (digitBefore? (some ⟨offset, t⟩) (offset + t.written.length)) (behind t r)) := by
  rw [← written_append_behind ht]
  have hne := (written_append_of_firstToken? ht).1
  cases t with
  | number digits =>
    have habsent : ∀ d ∈ digits, ∀ k ∈ word, sameLetter k d = false := by
      rw [(number_of_firstToken? ht).2]
      exact absent_of_mem_numberAt hword hdigits
    have hend : digitBefore? (some ⟨offset, .number digits⟩)
        (offset + (Token.number digits).written.length) = digits.getLast? := if_pos rfl
    have hlast := List.getLast?_eq_some_getLast (l := digits) hne
    rw [hend, Token.written, containsWordFrom_append_of_absent hword.1 habsent,
      not_containsWordFrom_of_absent hword.1 habsent, Bool.false_or, hlast, Option.some_or]
  | word letters =>
    exact containsWordFrom_append_edge hword (not_isWordChar_behind_word ht hnext) _ _
  | quotedName name =>
    refine containsWordFrom_edge_append hword hne ?_ _ _
    rw [Token.written, List.getLast?_concat]
    decide
  | literal quote body =>
    refine containsWordFrom_edge_append hword hne ?_ _ _
    rw [Token.written, List.getLast?_concat]
    cases quote <;> decide
  | operator op =>
    refine containsWordFrom_edge_append hword hne ?_ _ _
    cases op <;> decide
  | _ => exact containsWordFrom_edge_append hword hne (by decide) _ _

theorem containsWordFrom_of_scanFrom {offset depth : Nat} {cs : List Char} {placed : List Placed}
    (h : scanFrom offset depth cs = .ok placed) {last : Option Placed}
    (hlast : ∀ p, last = some p → p.offset + p.token.written.length ≤ offset) :
    containsWordFrom sameLetter word (digitBefore? last offset) cs =
      showsWordFrom word last placed := by
  fun_induction scanFrom offset depth cs generalizing placed last with
  | case1 =>
    cases h
    rw [not_containsWordFrom_nil hword.1]
    rfl
  | case3 offset depth b cs hb ih =>
    have hnone := digitBefore?_of_lt fun p hp => Nat.lt_succ_of_le (hlast p hp)
    have hblank := separates_of_not_isWordChar hword (not_isWordChar_of_isBlank hb)
    rw [containsWordFrom_cons_of_separates hblank hword.1,
      ← ih h fun p hp => Nat.le_succ_of_le (hlast p hp), hnone]
  | case7 offset depth b cs hb t ht hclose inner more hmore =>
    rename_i ih
    cases h
    have hplace : ∀ p, some (⟨offset, t⟩ : Placed) = some p →
        p.offset + p.token.written.length ≤ offset + t.written.length := by
      rintro p ⟨⟩
      exact Nat.le_refl _
    have hrest := ih hmore hplace
    rw [containsWordFrom_token hword hdigits (firstToken?_of_tokenAt ht)
      (readsOn_of_scanFrom hmore) offset, showsWordFrom, ← hrest]
    rfl
  | _ => cases h

omit hword hdigits in
theorem exists_of_showsWordFrom {last : Option Placed} {placed : List Placed}
    (h : showsWordFrom word last placed = true) :
    ∃ p ∈ placed, ∃ before, containsWordFrom sameLetter word before p.token.written = true := by
  induction placed generalizing last with
  | nil => cases h
  | cons p more ih =>
    rw [showsWordFrom, Bool.or_eq_true] at h
    rcases h with hhere | hmore
    · exact ⟨p, List.mem_cons_self, _, hhere⟩
    · obtain ⟨q, hq, hshown⟩ := ih hmore
      exact ⟨q, List.mem_cons_of_mem p hq, hshown⟩

/-- A text contains a word when one of its tokens does. -/
theorem containsWord_of_scan {cs : List Char} {placed : List Placed} (h : scan cs = .ok placed) :
    containsWord word cs = showsWord word placed := by
  have hnone : ∀ p, (none : Option Placed) = some p → p.offset + p.token.written.length ≤ 0 := nofun
  exact containsWordFrom_of_scanFrom hword hdigits h hnone

end Word

/-! ### Tokens that contain a word -/

/-- Whether a token can contain a word without being that word. -/
def isDivisible : Token → Bool
  | .literal _ _ | .quotedName _ => true
  | .word letters => letters.contains '$'
  | _ => false

/-- Letters of a word that are a keyword up to their case make the word that keyword. -/
theorem keyword?_of_sameWord {k : Keyword} {letters : List Char}
    (hascii : ∀ c ∈ letters, c.toNat < 128)
    (h : sameWord sameLetter k.letters letters = true) :
    (Token.word letters).keyword? = some k := by
  have hall : k.letters.all (fun j => j.toNat < 128) = true := by
    cases k <;> decide
  have hletters : ∀ j ∈ k.letters, j.toNat < 128 := by simpa using hall
  have hlowered : (Token.word letters).lowered = (Token.word k.letters).lowered := by
    rw [Token.lowered, Token.lowered, map_toLower_of_sameWord hletters hascii h]
  rw [← Token.keyword?_lowered, hlowered, Token.keyword?_lowered]
  exact Keyword.ofWord?_letters k

section Divisible

variable {word : List Char} (hword : isPlainWord word)
include hword

/-- The character in front of a text can only take a word away from it. -/
theorem containsWord_of_containsWordFrom {before : Option Char} {cs : List Char}
    (h : containsWordFrom sameLetter word before cs = true) : containsWord word cs = true := by
  cases hbefore : isWordChar? before with
  | false => rwa [containsWord, ← containsWordFrom_before hbefore]
  | true =>
    obtain ⟨k, more, rfl⟩ := List.exists_cons_of_ne_nil hword.1
    cases cs with
    | nil =>
      rw [not_containsWordFrom_nil hword.1] at h
      cases h
    | cons c r =>
      obtain ⟨hk, hchar⟩ := hword.2 k List.mem_cons_self
      have hnotHere : (wordEdge before (some c) &&
          wordHere sameLetter before (k :: more) (c :: r)) = false := by
        rw [Bool.and_eq_false_iff, or_iff_not_imp_right, Bool.not_eq_false, wordHere,
          Bool.and_eq_true]
        rintro ⟨hsame, _⟩
        rw [wordEdge, hbefore, isWordChar?, isWordChar_of_sameLetter hk hchar hsame]
        rfl
      rw [containsWordFrom, hnotHere, Bool.false_or] at h
      rw [containsWord, containsWordFrom, h, Bool.or_true]

theorem sameWord_of_containsWordFrom {before : Option Char} {letters : List Char}
    (hletters : ∀ c ∈ letters, isWordChar c = true)
    (h : containsWordFrom sameLetter word before letters = true) :
    sameWord sameLetter word letters = true := by
  have hsame : ∀ k ∈ word, ∀ c ∈ letters, sameLetter k c = true → isWordChar c = true :=
    fun _ _ c hc _ => hletters c hc
  obtain ⟨w, hw, hsw⟩ := mem_wordsOf_of_containsWordFrom hword.1 hsame h
  rw [wordsOf_of_all hletters] at hw
  split at hw
  · cases hw
  · rwa [List.mem_singleton.mp hw] at hsw

/-- A token that contains a word is the word, unless it can be divided. -/
theorem isDivisible_or_sameWord (hdigits : ∀ k ∈ word, isAsciiDigit k = false) {c : Char}
    {r : List Char} {t : Token} (ht : firstToken? c r = some t) {before : Option Char}
    (h : containsWordFrom sameLetter word before t.written = true) :
    isDivisible t = true ∨ ∃ letters, t = .word letters ∧
      sameWord sameLetter word letters = true := by
  have absurd_of_absent (habsent : ∀ d ∈ t.written, ∀ k ∈ word, sameLetter k d = false) {p : Prop} :
      p := by
    rw [not_containsWordFrom_of_absent hword.1 habsent] at h
    cases h
  have absent (hmarks : ∀ d ∈ t.written, isWordChar d = false) :
      ∀ d ∈ t.written, ∀ k ∈ word, sameLetter k d = false := fun d hd =>
    (separates_of_not_isWordChar hword (hmarks d hd)).absent
  cases t with
  | quotedName name => exact Or.inl rfl
  | literal quote body => exact Or.inl rfl
  | number digits =>
    apply absurd_of_absent
    rw [Token.written, (number_of_firstToken? ht).2]
    exact absent_of_mem_numberAt hword hdigits
  | word letters =>
    cases hdollar : letters.contains '$' with
    | true => exact Or.inl hdollar
    | false =>
      refine Or.inr ⟨letters, rfl, sameWord_of_containsWordFrom hword ?_ h⟩
      intro d hd
      have hpart := isWordPart_of_word ht d hd
      have hne : d ≠ '$' := by
        rintro rfl
        rw [List.contains_iff_mem.mpr hd] at hdollar
        cases hdollar
      rw [isWordPart_eq (toNat_lt_of_isWordPart hpart), Bool.or_eq_true, beq_iff_eq] at hpart
      exact hpart.resolve_right hne
  | operator op =>
    apply absurd_of_absent
    apply absent
    apply eq_false_of_all
    cases op <;> decide
  | _ =>
    apply absurd_of_absent
    apply absent
    apply eq_false_of_all
    decide

end Divisible

/-! ### Statements without a limit -/

theorem toList_limit : "LIMIT".toList = Keyword.limit.letters :=
  Keyword.toList_spelling .limit

theorem isPlainWord_limit : isPlainWord "LIMIT".toList := by
  have hall : ("LIMIT".toList.all fun k => k.toNat < 128 && isWordChar k) = true := by decide
  exact ⟨by decide, by simpa using hall⟩

theorem not_isAsciiDigit_limit : ∀ k ∈ "LIMIT".toList, isAsciiDigit k = false :=
  eq_false_of_all (by decide)

/-- A text with a limit behind it. -/
def withRows (text : List Char) (n : Int) : List Char :=
  trimRight text ++ " LIMIT ".toList ++ (toString n).toList

theorem toList_text_withLimit {s : Statement} (h : s.hasLimit = false) (n : Int) :
    (s.withLimit n).text.toList = withRows s.text.toList n := by
  simp [Statement.withLimit, h, withRows]

theorem hasLimit_withLimit (s : Statement) (n : Int) : (s.withLimit n).hasLimit = true := by
  cases h : s.hasLimit with
  | true => rwa [Statement.withLimit, if_pos h]
  | false =>
    have hsplit : withRows s.text.toList n =
        (trimRight s.text.toList ++ [' ']) ++ ("LIMIT".toList ++ ' ' :: (toString n).toList) := by
      simp [withRows]
    rw [Statement.hasLimit, toList_text_withLimit h, hsplit]
    apply containsWordFrom_of_sameWord (by decide) (by decide)
      fun c hc => (isPlainWord_limit.2 c hc).2
    · rw [List.getLast?_concat]
      decide
    · rfl

theorem withLimit_withLimit (s : Statement) (n m : Int) :
    (s.withLimit n).withLimit m = s.withLimit n :=
  if_pos (hasLimit_withLimit s n)

/-- Without a limit keyword the word can only be seen in tokens that can be divided. -/
theorem isDivisible_of_showsWord {placed : List Placed} {cs : List Char}
    (hscan : scan cs = .ok placed) (hnone : ∀ p ∈ placed, p.token.isKeyword .limit = false)
    (h : showsWord "LIMIT".toList placed = true) :
    ∃ p ∈ placed, isDivisible p.token = true ∧
      containsWord "LIMIT".toList p.token.written = true := by
  obtain ⟨p, hp, before, hshown⟩ := exists_of_showsWordFrom h
  refine ⟨p, hp, ?_, containsWord_of_containsWordFrom isPlainWord_limit hshown⟩
  obtain ⟨front, after, rfl⟩ := List.append_of_mem hp
  obtain ⟨_, _, _, hstands⟩ := standsAt_of_scan hscan
  rcases isDivisible_or_sameWord isPlainWord_limit not_isAsciiDigit_limit hstands.token hshown with
    hdivisible | ⟨letters, hletters, hsame⟩
  · exact hdivisible
  · have hword := hstands.token
    rw [hletters] at hword
    have hascii : ∀ c ∈ letters, c.toNat < 128 := fun c hc =>
      toNat_lt_of_isWordPart (isWordPart_of_word hword c hc)
    have hlimit := hnone p hp
    rw [toList_limit] at hsame
    rw [hletters, Token.isKeyword, keyword?_of_sameWord hascii hsame] at hlimit
    cases hlimit

/-- An accepted statement has a limit keyword. -/
theorem limit_of_accepts {a : AllowList} {cs : List Char} (haccepted : accepts a cs = true)
    {placed : List Placed} (hscan : scan cs = .ok placed) :
    ∃ p ∈ placed, p.token.isKeyword .limit = true := by
  obtain ⟨ts, _, hblocks, _, front, l, limit, rfl, _⟩ := limits_of_accepts haccepted
  obtain ⟨_, hts, _⟩ := Scope.blocksOf_eq_ok_iff.mp hblocks
  obtain ⟨found, hfound, htokens⟩ := scan_of_tokenize hts
  obtain rfl : placed = found := Except.ok.inj (hscan.symm.trans hfound)
  have hmem : l.1 ∈ placed.map (·.token) := by
    rw [htokens]
    simp
  obtain ⟨p, hp, hl⟩ := List.mem_map.mp hmem
  exact ⟨p, hp, hl ▸ l.2⟩

/-- Without a limit keyword a statement gets a limit, and is accepted with it if it can be, just
when none of its tokens contains the word. -/
theorem missing_limit_added (s : Statement) :
    (∀ n m : Int, (s.withLimit n).withLimit m = s.withLimit n) ∧
      ∀ placed, scan s.text.toList = .ok placed →
        (∀ p ∈ placed, p.token.isKeyword .limit = false) →
        (showsWord "LIMIT".toList placed = true →
          ∃ p ∈ placed, isDivisible p.token = true ∧
            containsWord "LIMIT".toList p.token.written = true) ∧
        ∀ n : Int, accepts Policy.shipped (withRows s.text.toList n) = true →
          (accepts Policy.shipped (s.withLimit n).text.toList = true ↔
            showsWord "LIMIT".toList placed = false) := by
  refine ⟨withLimit_withLimit s, ?_⟩
  intro placed hscan hnone
  refine ⟨isDivisible_of_showsWord hscan hnone, ?_⟩
  intro n haccepted
  have hshows : s.hasLimit = showsWord "LIMIT".toList placed :=
    containsWord_of_scan isPlainWord_limit not_isAsciiDigit_limit hscan
  rw [← hshows]
  constructor
  · -- A statement that keeps its text has no limit to be accepted with.
    intro hkept
    cases hlimit : s.hasLimit with
    | false => rfl
    | true =>
      rw [Statement.withLimit, if_pos hlimit] at hkept
      obtain ⟨p, hp, hkeyword⟩ := limit_of_accepts hkept hscan
      rw [hnone p hp] at hkeyword
      cases hkeyword
  · intro hmissing
    rwa [toList_text_withLimit hmissing]

/-- A text as an assistant drafts it. -/
def draftOf (text : List Char) : Statement := ⟨String.ofList text, .external, none⟩

theorem toList_text_draftOf (text : List Char) : (draftOf text).text.toList = text :=
  String.toList_ofList

/-- The tokens of `checkIdsText` with their places. -/
def checkIdsTokens : List Placed :=
  [⟨0, .word "SELECT".toList⟩, ⟨7, .word "id".toList⟩, ⟨10, .word "FROM".toList⟩,
    ⟨15, .word "daily_check".toList⟩]

theorem missing_limit_added_to_checkIds :
    scan (draftOf checkIdsText).text.toList = .ok checkIdsTokens ∧
      (∀ p ∈ checkIdsTokens, p.token.isKeyword .limit = false) ∧
      accepts Policy.shipped (withRows (draftOf checkIdsText).text.toList 10) = true ∧
      accepts Policy.shipped ((draftOf checkIdsText).withLimit 10).text.toList = true := by
  have hscan : scan (draftOf checkIdsText).text.toList = .ok checkIdsTokens := by
    rw [toList_text_draftOf]
    decide +kernel
  have hnone : ∀ p ∈ checkIdsTokens, p.token.isKeyword .limit = false := by decide +kernel
  have haccepted : accepts Policy.shipped (withRows (draftOf checkIdsText).text.toList 10) = true := by
    rw [toList_text_draftOf]
    exact accepts_of_isQuietQuery (by decide +kernel)
  obtain ⟨_, hadded⟩ := (missing_limit_added (draftOf checkIdsText)).2 checkIdsTokens hscan hnone
  exact ⟨hscan, hnone, haccepted, (hadded 10 haccepted).mpr (by decide +kernel)⟩

/-- A statement without a limit that compares a column with the word. -/
def limitNoteText : List Char :=
  "SELECT id FROM daily_check WHERE restaurant_id = 74 AND note = 'limit'".toList

/-- The tokens of `limitNoteText` with their places. -/
def limitNoteTokens : List Placed :=
  checkIdsTokens ++ [⟨27, .word "WHERE".toList⟩, ⟨33, .word "restaurant_id".toList⟩,
    ⟨47, .operator .eq⟩, ⟨49, .number "74".toList⟩, ⟨52, .word "AND".toList⟩,
    ⟨56, .word "note".toList⟩, ⟨61, .operator .eq⟩, ⟨63, .literal .single "limit".toList⟩]

/-- The word in the literal keeps the statement from getting the limit with which it is accepted. -/
theorem missing_limit_not_added :
    scan (draftOf limitNoteText).text.toList = .ok limitNoteTokens ∧
      (∀ p ∈ limitNoteTokens, p.token.isKeyword .limit = false) ∧
      accepts Policy.shipped (withRows (draftOf limitNoteText).text.toList 1000) = true ∧
      accepts Policy.shipped ((draftOf limitNoteText).withLimit 1000).text.toList = false := by
  have hscan : scan limitNoteText = .ok limitNoteTokens := by decide +kernel
  have hnone : ∀ p ∈ limitNoteTokens, p.token.isKeyword .limit = false := by decide +kernel
  have hshown : (draftOf limitNoteText).hasLimit = true := by
    rw [Statement.hasLimit, toList_text_draftOf]
    decide +kernel
  rw [Statement.withLimit, if_pos hshown, toList_text_draftOf]
  refine ⟨hscan, hnone, accepts_of_isQuietQuery (by decide +kernel), ?_⟩
  rw [← Bool.not_eq_true]
  intro haccepted
  obtain ⟨p, hp, hlimit⟩ := limit_of_accepts haccepted hscan
  rw [hnone p hp] at hlimit
  cases hlimit

end Guard
end QueryGate
