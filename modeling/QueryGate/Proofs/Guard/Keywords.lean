import QueryGate.Proofs.Guard.Acceptance
import QueryGate.Proofs.Guard.Wording
import QueryGate.Proofs.Sql.Places

/-!
# Forbidden words and tokens

The guard searches the text of a statement for forbidden words, whereas the lexer takes it to
pieces.  Both see the same words, with one exception: behind a number the lexer starts a word at
once, and the search sees no edge of a word there.
-/

namespace QueryGate
namespace Guard

open Text Sql

def isPlainWord (word : List Char) : Prop :=
  word ≠ [] ∧ ∀ k ∈ word, k.toNat < 128 ∧ isWordChar k = true

theorem isWordChar_of_sameWord {word w : List Char} (hword : isPlainWord word)
    (h : sameWord sameLetter word w = true) : w ≠ [] ∧ ∀ c ∈ w, isWordChar c = true := by
  obtain ⟨hne, hletters⟩ := hword
  constructor
  · rintro rfl
    cases word with
    | nil => exact hne rfl
    | cons k word => cases h
  · clear hne
    induction word generalizing w with
    | nil =>
      cases w with
      | nil => nofun
      | cons c w => cases h
    | cons k word ih =>
      cases w with
      | nil => nofun
      | cons c w =>
        rw [sameWord, Bool.and_eq_true] at h
        obtain ⟨hk, hchar⟩ := hletters k List.mem_cons_self
        intro d hd
        rcases List.mem_cons.mp hd with rfl | hd
        · exact isWordChar_of_sameLetter hk hchar h.1
        · exact ih h.2 (fun k hk => hletters k (List.mem_cons_of_mem _ hk)) d hd

/-- Whether a word stands right behind a number, which is the last of the tokens before it. -/
def touchesNumber (before : List Placed) (p : Placed) : Prop :=
  ∃ letters n digits, p.token = .word letters ∧ before.getLast? = some n ∧
    n.token = .number digits ∧ n.offset + digits.length = p.offset

section Stands

variable {offset : Nat} {cs : List Char} {before : List Placed} {p : Placed} {front : List Char}
  {c : Char} {r : List Char} (hstands : StandsAt offset cs before p front c r)
include hstands

/-- Only a number ends in a word character where a word starts. -/
theorem touchesNumber_of_isWordChar {letters : List Char} (hp : p.token = .word letters)
    (hfront : isWordChar? front.getLast? = true) : touchesNumber before p := by
  cases hstands.start with
  | blank hblank =>
    cases hlast : front.getLast? with
    | none =>
      rw [hlast] at hfront
      cases hfront
    | some b =>
      rw [hlast, isWordChar?, not_isWordChar_of_isBlank (hblank b hlast)] at hfront
      cases hfront
  | @token n d s hlast hn hrest hsuffix hoffset =>
    have hword := hstands.token
    rw [hp] at hword
    have hstart := (word_of_firstToken? hword).1
    obtain ⟨v, hv⟩ := hsuffix
    have hne := (written_append_of_firstToken? hn).1
    rw [← hv, List.getLast?_append, List.getLast?_eq_some_getLast hne, Option.some_or,
      ← List.getLast?_eq_some_getLast hne] at hfront
    obtain ⟨digits, hdigits⟩ := number_of_isWordChar hn hrest hstart hfront
    rw [hdigits] at hoffset
    exact ⟨letters, n, digits, hp, hlast, hdigits, hoffset⟩

/-- The search finds a word that is a token, unless it stands right behind a number. -/
theorem containsWord_or_touchesNumber {word : List Char} (hword : isPlainWord word)
    (hid : p.token.isIdentifier = true) (hsame : sameWord sameLetter word p.token.inner = true) :
    containsWord word cs = true ∨ touchesNumber before p := by
  obtain ⟨hne, hchars⟩ := isWordChar_of_sameWord hword hsame
  have hsplit := written_append_behind hstands.token
  cases hp : p.token with
  | quotedName name =>
    left
    rw [hp] at hsame hne hchars hsplit
    have hquote : isWordChar Token.nameQuote = false := by decide
    have hcs : cs = (front ++ [Token.nameQuote]) ++
        (name ++ Token.nameQuote :: behind (.quotedName name) r) := by
      rw [hstands.text, ← hsplit]
      simp [Token.written]
    rw [hcs]
    apply containsWordFrom_of_sameWord hne hsame hchars
    · rw [List.getLast?_concat]
      exact hquote
    · exact hquote
  | word letters =>
    have hnext := hstands.next
    have htoken := hstands.token
    rw [hp] at hsame hne hchars hsplit hnext htoken
    cases hfront : isWordChar? front.getLast? with
    | true => exact Or.inr (touchesNumber_of_isWordChar hstands hp hfront)
    | false =>
      left
      rw [hstands.text, ← hsplit]
      exact containsWordFrom_of_sameWord hne hsame hchars hfront
        (not_isWordChar_behind_word htoken hnext)
  | _ =>
    rw [hp] at hid
    cases hid

end Stands

/-- A forbidden word that is a token of an accepted statement stands right behind a number. -/
theorem touchesNumber_of_accepts {a : AllowList} {sql : List Char} (haccepted : accepts a sql = true)
    {keyword : String} (hkeyword : keyword ∈ a.forbiddenKeywords)
    (hword : isPlainWord keyword.toList) {before after : List Placed} {p : Placed}
    (hscan : scan sql = .ok (before ++ p :: after)) (hid : p.token.isIdentifier = true)
    (hsame : sameWord sameLetter keyword.toList p.token.inner = true) : touchesNumber before p := by
  obtain ⟨_, hwords, _⟩ := accepts_iff.mp haccepted
  have hblank : ∀ k ∈ keyword.toList, ∀ c, isBlank c = true → sameLetter k c = false :=
    fun k hk c => not_sameLetter_of_isBlank (hword.2 k hk).1 (hword.2 k hk).2
  have hnone := hwords keyword hkeyword
  rw [containsWord, containsWordFrom_squeeze hblank hword.1] at hnone
  obtain ⟨front, c, r, hstands⟩ := standsAt_of_scan hscan
  apply (containsWord_or_touchesNumber hstands hword hid hsame).resolve_left
  rw [containsWord, hnone]
  decide

theorem scan_of_tokenize {cs : List Char} {ts : List Token} (h : tokenize cs = .ok ts) :
    ∃ placed, scan cs = .ok placed ∧ placed.map (·.token) = ts := by
  unfold tokenize at h
  cases hscan : scan cs with
  | error fault =>
    rw [hscan] at h
    cases h
  | ok placed =>
    rw [hscan] at h
    cases h
    exact ⟨placed, rfl, rfl⟩

/-- A statement that is accepted can be read, and the only tokens of it that are forbidden words are
words right behind a number.  So it has none if no word starts right behind a number. -/
theorem forbidden_tokens_touch_numbers {sql : List Char}
    (haccepted : accepts Policy.shipped sql = true) :
    ∃ placed, scan sql = .ok placed ∧ ∀ before p after, placed = before ++ p :: after →
      p.token.isIdentifier = true → ∀ keyword ∈ Policy.shipped.forbiddenKeywords,
        sameWord sameLetter keyword.toList p.token.inner = true → touchesNumber before p := by
  obtain ⟨_, _, queries, hqueries, _⟩ := checks_of_accepts haccepted
  obtain ⟨us, _, hus, _⟩ := queriesOf_eq_ok hqueries
  obtain ⟨ts, hts, _⟩ := exists_tokens_of_squeeze hus
  obtain ⟨placed, hscan, _⟩ := scan_of_tokenize hts
  refine ⟨placed, hscan, ?_⟩
  rintro before p after rfl hid keyword hkeyword hsame
  exact touchesNumber_of_accepts haccepted hkeyword (isWordChar_of_forbidden hkeyword) hscan hid hsame

/-- A statement with a forbidden word right behind a number. -/
def dropBehindNumber : List Char :=
  "SELECT id FROM daily_check WHERE id = 1DROP LIMIT 1".toList

theorem accepts_dropBehindNumber : accepts Policy.shipped dropBehindNumber = true := by
  apply accepts_of_isQuietQuery
  unfold dropBehindNumber
  rewrite [String.toList_ofList]
  decide +kernel

theorem forbidden_tokens_of_dropBehindNumber :
    accepts Policy.shipped dropBehindNumber = true ∧
      ∃ placed, scan dropBehindNumber = .ok placed ∧
        ∀ before p after, placed = before ++ p :: after → p.token.isIdentifier = true →
          ∀ keyword ∈ Policy.shipped.forbiddenKeywords,
            sameWord sameLetter keyword.toList p.token.inner = true → touchesNumber before p :=
  ⟨accepts_dropBehindNumber, forbidden_tokens_touch_numbers accepts_dropBehindNumber⟩

/-- The number ends where the forbidden word starts, which no search for whole words finds. -/
theorem accepted_statement_shows_drop :
    accepts Policy.shipped dropBehindNumber = true ∧
      "DROP" ∈ Policy.shipped.forbiddenKeywords ∧
      ∃ ts, tokenize dropBehindNumber = .ok ts ∧ .word "DROP".toList ∈ ts := by
  refine ⟨accepts_dropBehindNumber, by decide +kernel, ?_⟩
  refine ⟨[.word "SELECT".toList, .word "id".toList, .word "FROM".toList,
    .word "daily_check".toList, .word "WHERE".toList, .word "id".toList, .operator .eq,
    .number "1".toList, .word "DROP".toList, .word "LIMIT".toList, .number "1".toList], ?_, by simp⟩
  rw [tokenize_eq_ok_iff]
  decide +kernel

end Guard
end QueryGate
