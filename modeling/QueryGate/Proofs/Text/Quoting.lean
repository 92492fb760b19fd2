import Mathlib.Data.Bool.AllAny
import QueryGate.Proofs.Text.Collapse
import QueryGate.Text.Quoted

/-!
# Reading quoted texts

Where a quoted text ends can be seen without knowing the text: a quote inside it stands behind a
backslash, and every escape tells how long it is.  So a text is known from its quoted form, whatever
follows it, and the quoted form shows no blank that the text does not have.
-/

namespace QueryGate
namespace Text

/-! ### Digits of base sixteen -/

theorem hexDigit_inj {m n : Nat} (hm : m < 16) (hn : n < 16) (h : hexDigit m = hexDigit n) :
    m = n := by
  have hall : ∀ m < 16, ∀ n < 16, hexDigit m = hexDigit n → m = n := by decide
  exact hall m hm n hn h

theorem not_isBlank_hexDigit {n : Nat} (h : n < 16) : isBlank (hexDigit n) = false := by
  have hall : ∀ n < 16, isBlank (hexDigit n) = false := by decide
  exact hall n h

theorem not_isBlank_hexDigits (width n : Nat) : ∀ c ∈ hexDigits width n, isBlank c = false := by
  induction width generalizing n with
  | zero =>
    intro c hc
    cases hc
  | succ width ih =>
    intro c hc
    rcases List.mem_append.mp hc with hc | hc
    · exact ih _ c hc
    · obtain rfl := List.mem_singleton.mp hc
      exact not_isBlank_hexDigit (Nat.mod_lt _ (by decide))

/-- Digits of base sixteen tell the number that they are of, unless they are too few for it. -/
theorem hexDigits_inj {width m n : Nat} (hm : m < Nat.pow 16 width) (hn : n < Nat.pow 16 width)
    (h : hexDigits width m = hexDigits width n) : m = n := by
  induction width generalizing m n with
  | zero => exact (Nat.lt_one_iff.mp hm).trans (Nat.lt_one_iff.mp hn).symm
  | succ width ih =>
    obtain ⟨hfront, hlast⟩ := List.append_inj' h rfl
    have hm : m < Nat.pow 16 width * 16 := hm
    have hn : n < Nat.pow 16 width * 16 := hn
    have hhigh : m / 16 = n / 16 := by
      apply ih
      · omega
      · omega
      · exact hfront
    have hlow : m % 16 = n % 16 := by
      apply hexDigit_inj
      · exact Nat.mod_lt _ (by decide)
      · exact Nat.mod_lt _ (by decide)
      · exact (List.cons.inj hlast).1
    omega

theorem length_hexDigits (width n : Nat) : (hexDigits width n).length = width := by
  induction width generalizing n with
  | zero => rfl
  | succ width ih => simp [hexDigits, ih]

/-! ### One character between quotes -/

/-- The number of digits behind an escape letter. -/
def escapeWidth (k : Char) : Nat :=
  if k = 'x' then 2 else if k = 'u' then 4 else if k = 'U' then 8 else 0

/-- The character that an escape without digits stands for. -/
def escaped (k : Char) : Char :=
  if k = 'n' then '\n' else if k = 't' then '\t' else if k = 'r' then '\r' else k

/-- The forms in which a character stands between quotes. -/
inductive QuotedForm (quote c : Char) : List Char → Prop
  /-- The character as it is. -/
  | plain (hquote : c ≠ quote) (hescape : c ≠ '\\') : QuotedForm quote c [c]
  /-- An escape without digits. -/
  | short (k : Char) (hwidth : escapeWidth k = 0) (h : c = escaped k) :
      QuotedForm quote c ['\\', k]
  /-- An escape with as many digits as its letter says. -/
  | code (k : Char) (hwidth : escapeWidth k ≠ 0) (h : c.toNat < Nat.pow 16 (escapeWidth k)) :
      QuotedForm quote c ('\\' :: k :: hexDigits (escapeWidth k) c.toNat)

/-- The two characters that texts are put between. -/
def quoteMarks : List Char := ['\'', '"']

theorem quoteFor_mem (cs : List Char) : quoteFor cs ∈ quoteMarks := by
  unfold quoteFor
  split <;> decide

theorem toNat_lt (c : Char) : c.toNat < 0x110000 := by
  have hcode : c.toNat < 0xd800 ∨ 0xdfff < c.toNat ∧ c.toNat < 0x110000 := c.valid
  omega

theorem quotedForm_codeEscape (quote c : Char) : QuotedForm quote c (codeEscape c) := by
  unfold codeEscape
  dsimp only
  split
  · rename_i h
    exact .code 'x' (by decide) h
  · split
    · rename_i h
      exact .code 'u' (by decide) h
    · exact .code 'U' (by decide) (Nat.lt_trans (toNat_lt c) (by decide))

section Quote

variable {quote : Char} (hquote : quote ∈ quoteMarks)
include hquote

theorem quotedForm_quotedChar (c : Char) : QuotedForm quote c (quotedChar quote c) := by
  unfold quotedChar
  split
  · rename_i h
    have hown : escapeWidth c = 0 ∧ c = escaped c := by
      have hall : ∀ k ∈ '\\' :: quoteMarks, escapeWidth k = 0 ∧ k = escaped k :=
        List.all_iff_forall_prop.mp (by decide)
      apply hall
      rcases h with rfl | rfl
      · exact List.mem_cons_of_mem _ hquote
      · exact List.mem_cons_self
    exact .short c hown.1 hown.2
  rename_i hmark
  split
  · rename_i h
    exact .short 'n' (by decide) h
  split
  · rename_i h
    exact .short 't' (by decide) h
  split
  · rename_i h
    exact .short 'r' (by decide) h
  split
  · exact .plain (fun h => hmark (Or.inl h)) (fun h => hmark (Or.inr h))
  · exact quotedForm_codeEscape quote c

omit hquote in
/-- A form tells its character and where it ends. -/
theorem QuotedForm.append_inj {c d : Char} {f g r s : List Char} (hf : QuotedForm quote c f)
    (hg : QuotedForm quote d g) (h : f ++ r = g ++ s) : c = d ∧ r = s := by
  cases hf with
  | plain _ hc =>
    cases hg with
    | plain _ hd => exact List.cons.inj h
    | short k _ _ => exact absurd (List.cons.inj h).1 hc
    | code k _ _ => exact absurd (List.cons.inj h).1 hc
  | short k hwidth hc =>
    cases hg with
    | plain _ hd => exact absurd (List.cons.inj h).1.symm hd
    | short l _ hd =>
      obtain ⟨hk, hrest⟩ := List.cons.inj (List.cons.inj h).2
      rw [hc, hd, hk]
      exact ⟨rfl, hrest⟩
    | code l hwidth' _ =>
      obtain ⟨hk, _⟩ := List.cons.inj (List.cons.inj h).2
      rw [← hk] at hwidth'
      exact absurd hwidth hwidth'
  | code k hwidth hc =>
    cases hg with
    | plain _ hd => exact absurd (List.cons.inj h).1.symm hd
    | short l hwidth' _ =>
      obtain ⟨hk, _⟩ := List.cons.inj (List.cons.inj h).2
      rw [hk] at hwidth
      exact absurd hwidth' hwidth
    | code l _ hd =>
      obtain ⟨rfl, hdigits⟩ := List.cons.inj (List.cons.inj h).2
      obtain ⟨hsame, hrest⟩ := List.append_inj hdigits
        (by rw [length_hexDigits, length_hexDigits])
      exact ⟨Char.toNat_inj.mp (hexDigits_inj hc hd hsame), hrest⟩

/-- No form begins with the quote. -/
theorem QuotedForm.append_ne_cons {c : Char} {f r s : List Char} (hf : QuotedForm quote c f) :
    f ++ r ≠ quote :: s := by
  have hescape : '\\' ≠ quote := by
    rintro rfl
    exact absurd hquote (by decide)
  intro h
  cases hf with
  | plain hc _ => exact hc (List.cons.inj h).1
  | short k _ _ => exact hescape (List.cons.inj h).1
  | code k _ _ => exact hescape (List.cons.inj h).1

omit hquote in
/-- The only blank that a form can show is its character. -/
theorem QuotedForm.eq_of_isBlank {b c : Char} {f : List Char} (hf : QuotedForm quote c f)
    (hmem : b ∈ f) (hb : isBlank b = true) : b = c := by
  have hescape : b ≠ '\\' := ne_of_isBlank hb (by decide)
  cases hf with
  | plain _ _ => exact List.mem_singleton.mp hmem
  | short k _ hc =>
    rcases List.mem_cons.mp hmem with h | h
    · exact absurd h hescape
    · obtain rfl := List.mem_singleton.mp h
      have hn : b ≠ 'n' := ne_of_isBlank hb (by decide)
      have ht : b ≠ 't' := ne_of_isBlank hb (by decide)
      have hr : b ≠ 'r' := ne_of_isBlank hb (by decide)
      rw [hc, escaped, if_neg hn, if_neg ht, if_neg hr]
  | code k hwidth _ =>
    rcases List.mem_cons.mp hmem with h | h
    · exact absurd h hescape
    rcases List.mem_cons.mp h with rfl | h
    · have hx : b ≠ 'x' := ne_of_isBlank hb (by decide)
      have hu : b ≠ 'u' := ne_of_isBlank hb (by decide)
      have hU : b ≠ 'U' := ne_of_isBlank hb (by decide)
      rw [escapeWidth, if_neg hx, if_neg hu, if_neg hU] at hwidth
      exact absurd rfl hwidth
    · rw [not_isBlank_hexDigits _ _ b h] at hb
      cases hb

/-! ### Whole texts -/

theorem flatMap_quotedChar_append_inj {cs ds r s : List Char}
    (h : cs.flatMap (quotedChar quote) ++ quote :: r =
      ds.flatMap (quotedChar quote) ++ quote :: s) : cs = ds ∧ r = s := by
  induction cs generalizing ds with
  | nil =>
    cases ds with
    | nil => exact ⟨rfl, (List.cons.inj h).2⟩
    | cons d ds =>
      rw [List.flatMap_cons, List.append_assoc] at h
      exact absurd h.symm (QuotedForm.append_ne_cons hquote (quotedForm_quotedChar hquote d))
  | cons c cs ih =>
    rw [List.flatMap_cons, List.append_assoc] at h
    cases ds with
    | nil => exact absurd h (QuotedForm.append_ne_cons hquote (quotedForm_quotedChar hquote c))
    | cons d ds =>
      rw [List.flatMap_cons, List.append_assoc] at h
      obtain ⟨rfl, hrest⟩ := QuotedForm.append_inj (quotedForm_quotedChar hquote c)
        (quotedForm_quotedChar hquote d) h
      obtain ⟨rfl, hr⟩ := ih hrest
      exact ⟨rfl, hr⟩

end Quote

/-- A text is known from its quoted form, and so is where the quoted form ends. -/
theorem quoted_append_inj {cs ds r s : List Char} (h : quoted cs ++ r = quoted ds ++ s) :
    cs = ds ∧ r = s := by
  have hcs : quoted cs ++ r =
      quoteFor cs :: (cs.flatMap (quotedChar (quoteFor cs)) ++ quoteFor cs :: r) := by
    simp [quoted]
  have hds : quoted ds ++ s =
      quoteFor ds :: (ds.flatMap (quotedChar (quoteFor ds)) ++ quoteFor ds :: s) := by
    simp [quoted]
  rw [hcs, hds] at h
  obtain ⟨hquote, hrest⟩ := List.cons.inj h
  rw [hquote] at hrest
  exact flatMap_quotedChar_append_inj (quoteFor_mem ds) hrest

/-- Every blank in a quoted text is one of the text. -/
theorem mem_of_mem_quoted {b : Char} {cs : List Char} (hmem : b ∈ quoted cs)
    (hb : isBlank b = true) : b ∈ cs := by
  have hquote : b ≠ quoteFor cs := by
    have hall : ∀ k ∈ quoteMarks, isBlank k = false := eq_false_of_all (by decide)
    exact ne_of_isBlank hb (hall _ (quoteFor_mem cs))
  rcases List.mem_append.mp hmem with h | h
  · rcases List.mem_cons.mp h with h | h
    · exact absurd h hquote
    · obtain ⟨c, hc, hform⟩ := List.mem_flatMap.mp h
      have hsame := (quotedForm_quotedChar (quoteFor_mem cs) c).eq_of_isBlank hform hb
      rwa [hsame]
  · exact absurd (List.mem_singleton.mp h) hquote

end Text
end QueryGate
