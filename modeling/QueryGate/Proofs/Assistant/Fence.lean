import Mathlib.Data.List.DropRight
import QueryGate.Assistant.Draft
import QueryGate.Proofs.Text.Places

/-!
# Fences around a draft

A draft may come between fences, the first of which may have a tag of letters behind it.  Taking the
fences off is one reading from left to right, and it finds what the pattern for a fenced text finds
when all its alternatives are tried in order.  A draft on lines of its own is recovered whole; a
draft that begins right behind the fence with a letter loses its first letters, which are taken for
the tag.
-/

namespace QueryGate

namespace Text

/-! ### Trimming -/

theorem trimRight_trimRight (cs : List Char) : trimRight (trimRight cs) = trimRight cs := by
  induction cs with
  | nil => rfl
  | cons c r ih =>
    rw [trimRight]
    split
    · split
      · rfl
      · rename_i hc
        simp [trimRight, hc]
    · rename_i kept hne
      rw [trimRight, ih]
      split
      · rename_i hnil
        exact absurd hnil (hne · )
      · rfl

theorem trimRight_concat_blank {c : Char} (hc : isBlank c = true) (a : List Char) :
    trimRight (a ++ [c]) = trimRight a := by
  induction a with
  | nil => simp [trimRight, hc]
  | cons d a ih => rw [List.cons_append, trimRight, trimRight, ih]

theorem trim_concat_blank {c : Char} (hc : isBlank c = true) (a : List Char) :
    trim (a ++ [c]) = trim a := by
  unfold trim trimLeft
  rw [List.dropWhile_append]
  split
  · rename_i hall
    rw [List.isEmpty_iff.mp hall, List.dropWhile_cons_of_pos hc]
    rfl
  · exact trimRight_concat_blank hc _

theorem trim_cons_blank {c : Char} (hc : isBlank c = true) (a : List Char) :
    trim (c :: a) = trim a := by
  unfold trim trimLeft
  rw [List.dropWhile_cons_of_pos hc]

theorem trim_trimLeft (a : List Char) : trim (trimLeft a) = trim a := by
  unfold trim trimLeft
  rw [List.dropWhile_idempotent]

theorem startsBlank_trimLeft (a : List Char) : startsBlank (trimLeft a) = false := by
  cases h : trimLeft a with
  | nil => rfl
  | cons c r =>
    have hhead := List.head?_dropWhile_not isBlank a
    rw [trimLeft] at h
    rw [h] at hhead
    exact hhead

/-- A text between two characters that are no blanks is trimmed. -/
theorem trim_between {c d : Char} (hc : isBlank c = false) (hd : isBlank d = false)
    (a : List Char) : trim (c :: (a ++ [d])) = c :: (a ++ [d]) := by
  unfold trim
  rw [trimLeft_of_not_startsBlank (by exact hc), ← List.cons_append, trimRight_concat hd]

end Text

namespace Assistant

open Text

/-! ### The pattern of a fenced text -/

/-- What is left behind a run of such characters, the longest run first. -/
def restsOfRun (p : Char → Bool) : List Char → List (List Char)
  | [] => [[]]
  | c :: r => if p c then restsOfRun p r ++ [c :: r] else [c :: r]

/-- What is left behind a line break, if there is one, and then the whole text. -/
def restsOfBreak : List Char → List (List Char)
  | [] => [[]]
  | c :: r => if c = '\n' then [r, c :: r] else [c :: r]

/-- Whether a text is the closing fence: with a line break in front or without, and at the end of
all, but for a line break. -/
def closes (cs : List Char) : Bool :=
  (restsOfBreak cs).any fun rest => rest == fence || rest == fence ++ ['\n']

/-- The beginnings of a text that the closing fence follows, the shortest first. -/
def insidesOf : List Char → List (List Char)
  | [] => []
  | c :: r => (if closes (c :: r) then [[]] else []) ++ (insidesOf r).map (c :: ·)

/-- The insides of a text behind its opening fence: a run of letters, a run of blanks, perhaps a
line break, the inside and the closing fence.  They come in the order in which the alternatives are
tried, runs as long as possible and the inside as short as possible. -/
def insidesBehind (cs : List Char) : List (List Char) :=
  (restsOfRun Char.isAlpha cs).flatMap fun rest =>
    (restsOfRun isBlank rest).flatMap fun rest => (restsOfBreak rest).flatMap insidesOf

/-- The insides that a text has under the pattern of a fenced text. -/
def insides (cs : List Char) : List (List Char) :=
  if fence.isPrefixOf cs then insidesBehind (cs.drop fence.length) else []

theorem restsOfRun_eq (p : Char → Bool) (cs : List Char) :
    ∃ more, restsOfRun p cs = cs.dropWhile p :: more := by
  induction cs with
  | nil => exact ⟨[], rfl⟩
  | cons c r ih =>
    obtain ⟨more, hmore⟩ := ih
    by_cases hc : p c = true
    · refine ⟨more ++ [c :: r], ?_⟩
      rw [restsOfRun, if_pos hc, hmore, List.dropWhile_cons_of_pos hc, List.cons_append]
    · refine ⟨[], ?_⟩
      rw [restsOfRun, if_neg hc, List.dropWhile_cons_of_neg hc]

theorem suffix_of_mem_restsOfRun {p : Char → Bool} {cs rest : List Char}
    (h : rest ∈ restsOfRun p cs) : rest <:+ cs := by
  induction cs with
  | nil => simp_all [restsOfRun]
  | cons c r ih =>
    rw [restsOfRun] at h
    split at h
    · rcases List.mem_append.mp h with h | h
      · exact (ih h).trans (List.suffix_cons c r)
      · exact List.mem_singleton.mp h ▸ List.suffix_rfl
    · exact List.mem_singleton.mp h ▸ List.suffix_rfl

theorem suffix_of_mem_restsOfBreak {cs rest : List Char} (h : rest ∈ restsOfBreak cs) :
    rest <:+ cs := by
  cases cs with
  | nil => simp_all [restsOfBreak]
  | cons c r =>
    rw [restsOfBreak] at h
    split at h
    · rcases List.mem_cons.mp h with rfl | h
      · exact List.suffix_cons c rest
      · exact List.mem_singleton.mp h ▸ List.suffix_rfl
    · exact List.mem_singleton.mp h ▸ List.suffix_rfl

theorem restsOfBreak_of_not_startsBlank {cs : List Char} (h : startsBlank cs = false) :
    restsOfBreak cs = [cs] := by
  cases cs with
  | nil => rfl
  | cons c r =>
    have hc : c ≠ '\n' := by
      rintro rfl
      cases h
    rw [restsOfBreak, if_neg hc]

/-! ### The inside that is found -/

/-- At the end of a text without a line break there the closing fence is the last thing. -/
theorem fence_suffix_of_closes {cs : List Char} (hend : ∀ a, cs ≠ a ++ ['\n'])
    (h : closes cs = true) : fence <:+ cs := by
  obtain ⟨rest, hrest, hfence⟩ := List.any_eq_true.mp h
  have hsuffix := suffix_of_mem_restsOfBreak hrest
  rw [Bool.or_eq_true, beq_iff_eq, beq_iff_eq] at hfence
  rcases hfence with rfl | rfl
  · exact hsuffix
  · obtain ⟨front, hfront⟩ := hsuffix
    exact absurd hfront.symm (by simpa using hend (front ++ fence))

theorem suffix_of_mem_insidesOf {cs inside : List Char} (h : inside ∈ insidesOf cs) :
    ∃ rest, cs = inside ++ rest ∧ closes rest = true := by
  induction cs generalizing inside with
  | nil => cases h
  | cons c r ih =>
    rw [insidesOf] at h
    rcases List.mem_append.mp h with h | h
    · split at h
      · rename_i hcloses
        rw [List.mem_singleton.mp h]
        exact ⟨c :: r, rfl, hcloses⟩
      · cases h
    · obtain ⟨b, hb, rfl⟩ := List.mem_map.mp h
      obtain ⟨rest, rfl, hcloses⟩ := ih hb
      exact ⟨rest, rfl, hcloses⟩

/-- In front of a fence at the end the closing fence starts there or with a line break before it. -/
theorem eq_of_closes {c : Char} {inner : List Char} (h : closes (c :: (inner ++ fence)) = true) :
    c = '\n' ∧ inner = [] := by
  obtain ⟨rest, hrest, hfence⟩ := List.any_eq_true.mp h
  rw [Bool.or_eq_true, beq_iff_eq, beq_iff_eq] at hfence
  have hlong : rest ≠ c :: (inner ++ fence) := by
    rintro rfl
    rcases hfence with heq | heq
    · have hlength := congrArg List.length heq
      rw [List.length_cons, List.length_append] at hlength
      omega
    · have hlast := congrArg List.getLast? heq
      rw [← List.cons_append, List.getLast?_append, List.getLast?_append] at hlast
      cases hlast
  rw [restsOfBreak] at hrest
  split at hrest
  · rename_i hc
    rcases List.mem_cons.mp hrest with rfl | hrest
    · refine ⟨hc, ?_⟩
      rcases hfence with heq | heq
      · exact List.append_left_eq_self.mp heq
      · have hlast := congrArg List.getLast? heq
        rw [List.getLast?_append, List.getLast?_append] at hlast
        cases hlast
    · exact absurd (List.mem_singleton.mp hrest) hlong
  · exact absurd (List.mem_singleton.mp hrest) hlong

/-- In front of a fence at the end all is inside, but for a line break there. -/
theorem insidesOf_append_fence (inner : List Char) :
    ∃ inside more, insidesOf (inner ++ fence) = inside :: more ∧
      (inner = inside ∨ inner = inside ++ ['\n']) := by
  induction inner with
  | nil => exact ⟨[], _, rfl, Or.inl rfl⟩
  | cons c inner ih =>
    obtain ⟨inside, more, hmore, hinner⟩ := ih
    rw [List.cons_append, insidesOf]
    split
    · rename_i hcloses
      obtain ⟨rfl, rfl⟩ := eq_of_closes hcloses
      exact ⟨[], _, rfl, Or.inr rfl⟩
    · refine ⟨c :: inside, more.map (c :: ·), by rw [hmore]; rfl, ?_⟩
      rcases hinner with rfl | rfl
      · exact Or.inl rfl
      · exact Or.inr rfl

/-- A fence at the end of two parts, the first without its character, is one of the second. -/
theorem fence_suffix_of_append (run : List Char) {rest : List Char} (hrun : ∀ c ∈ run, c ≠ '\x60')
    (h : fence <:+ run ++ rest) : fence <:+ rest := by
  rcases List.suffix_or_suffix_of_suffix h (List.suffix_append run rest) with hrest | hrest
  · exact hrest
  · obtain ⟨front, hfront⟩ := hrest
    obtain ⟨back, hback⟩ := h
    rw [← hfront, ← List.append_assoc] at hback
    have hrun' := List.append_cancel_right hback
    cases front with
    | nil => exact ⟨[], hfront.symm⟩
    | cons c front =>
      have hc : c ∈ fence := hfront ▸ List.mem_cons_self
      have hmem : c ∈ run := by simp [← hrun']
      exact absurd (by simpa [fence] using hc) (hrun c hmem)

/-- What is left behind a tag of letters and the blanks that follow it. -/
def behindTag (cs : List Char) : List Char := trimLeft (cs.dropWhile Char.isAlpha)

/-- The first alternative of every step leads to the inside. -/
theorem insidesBehind_of_eq {cs inner : List Char} (h : behindTag cs = inner ++ fence) :
    ∃ inside more, insidesBehind cs = inside :: more ∧
      (inner = inside ∨ inner = inside ++ ['\n']) := by
  obtain ⟨tags, htags⟩ := restsOfRun_eq Char.isAlpha cs
  obtain ⟨blanks, hblanks⟩ := restsOfRun_eq isBlank (cs.dropWhile Char.isAlpha)
  have hbreak := restsOfBreak_of_not_startsBlank (startsBlank_trimLeft (cs.dropWhile Char.isAlpha))
  obtain ⟨inside, more, hinside, hinner⟩ := insidesOf_append_fence inner
  unfold behindTag at h
  unfold insidesBehind
  rw [htags, List.flatMap_cons, hblanks, List.flatMap_cons, ← trimLeft, hbreak, h,
    List.flatMap_cons, hinside]
  exact ⟨inside, _, rfl, hinner⟩

/-- Any alternative that leads to an inside has a fence at the end. -/
theorem fence_suffix_of_mem {cs inside : List Char} (hend : ∀ a, cs ≠ a ++ ['\n'])
    (h : inside ∈ insidesBehind cs) : fence <:+ behindTag cs := by
  obtain ⟨rest₁, htag, h⟩ := List.mem_flatMap.mp h
  obtain ⟨rest₂, hblanks, h⟩ := List.mem_flatMap.mp h
  obtain ⟨rest₃, hbreak, h⟩ := List.mem_flatMap.mp h
  obtain ⟨closing, hclosing, hcloses⟩ := suffix_of_mem_insidesOf h
  have hsuffix : closing <:+ cs := by
    have hrest : closing <:+ rest₃ := ⟨inside, hclosing.symm⟩
    have hrest' := hrest.trans (suffix_of_mem_restsOfBreak hbreak)
    exact (hrest'.trans (suffix_of_mem_restsOfRun hblanks)).trans (suffix_of_mem_restsOfRun htag)
  have hclosed : fence <:+ closing := by
    refine fence_suffix_of_closes (fun a ha => ?_) hcloses
    obtain ⟨front, hfront⟩ := hsuffix
    exact hend (front ++ a) (by rw [← hfront, ha, List.append_assoc])
  -- neither the tag nor the blanks behind it have the character of the fence
  apply fence_suffix_of_append
    (cs.takeWhile Char.isAlpha ++ (cs.dropWhile Char.isAlpha).takeWhile isBlank)
  · rintro c hc rfl
    rcases List.mem_append.mp hc with hc | hc
    · exact absurd (List.mem_takeWhile_imp hc) (by decide)
    · exact absurd (List.mem_takeWhile_imp hc) (by decide)
  · unfold behindTag trimLeft
    rw [List.append_assoc, List.takeWhile_append_dropWhile, List.takeWhile_append_dropWhile]
    exact hclosed.trans hsuffix

/-- What the pattern finds first is what is read from left to right, but for blanks around it. -/
theorem head?_insides {cs : List Char} (hend : ∀ a, cs ≠ a ++ ['\n']) :
    (insides cs).head?.map trim = (fenced? cs).map trim := by
  unfold insides fenced?
  split
  · have hend' : ∀ a, cs.drop fence.length ≠ a ++ ['\n'] := by
      intro a ha
      apply hend (cs.take fence.length ++ a)
      rw [List.append_assoc, ← ha, List.take_append_drop]
    dsimp only
    rw [← behindTag]
    by_cases hsuffix : fence <:+ behindTag (cs.drop fence.length)
    · rw [if_pos (List.isSuffixOf_iff_suffix.mpr hsuffix)]
      obtain ⟨inner, hinner⟩ := hsuffix
      obtain ⟨inside, more, hinsides, hinside⟩ := insidesBehind_of_eq hinner.symm
      have htake : (inner ++ fence).take ((inner ++ fence).length - fence.length) = inner := by
        simp
      rw [hinsides, ← hinner, htake, List.head?_cons, Option.map_some, Option.map_some]
      rcases hinside with rfl | rfl
      · rfl
      · rw [trim_concat_blank (by decide)]
    · rw [if_neg fun h => hsuffix (List.isSuffixOf_iff_suffix.mp h)]
      cases hinsides : insidesBehind (cs.drop fence.length) with
      | nil => rfl
      | cons inside more =>
        exact absurd (fence_suffix_of_mem hend' (hinsides ▸ List.mem_cons_self)) hsuffix
  · rfl

theorem trim_ne_concat_break (cs a : List Char) : trim cs ≠ a ++ ['\n'] := by
  intro h
  have hsame : trimRight (trim cs) = trim cs := trimRight_trimRight _
  rw [h, trimRight_concat_blank (by decide)] at hsame
  obtain ⟨back, hback, _⟩ := trimRight_eq a
  have hlength := congrArg List.length hback
  rw [hsame] at hlength
  simp at hlength

/-- An answer without its fence is the inside that the pattern finds first, or the whole answer when
it finds none, without the blanks around it. -/
theorem stripFences_eq (reply : String) :
    stripFences reply =
      String.ofList (((insides (trim reply.toList)).head?.map trim).getD (trim reply.toList)) := by
  rw [head?_insides (trim_ne_concat_break _)]
  unfold stripFences
  dsimp only
  cases fenced? (trim reply.toList) <;> rfl

/-! ### What is recovered -/

theorem fenced?_fence (inner : List Char) :
    fenced? (fence ++ (inner ++ fence)) = some (trimLeft (inner.dropWhile Char.isAlpha)) := by
  have hbehind : behindTag (inner ++ fence) = trimLeft (inner.dropWhile Char.isAlpha) ++ fence := by
    unfold behindTag fence
    rw [dropWhile_append_cons (by decide), trimLeft_append_cons (by decide)]
  unfold fenced?
  rw [if_pos (List.isPrefixOf_iff_prefix.mpr (List.prefix_append _ _)), List.drop_left]
  dsimp only
  rw [← behindTag, hbehind, if_pos (List.isSuffixOf_iff_suffix.mpr (List.suffix_append _ _))]
  simp

/-- Whatever stands between fences is given without the letters at its front. -/
theorem stripFences_fence (inner : List Char) :
    stripFences (String.ofList (fence ++ (inner ++ fence))) =
      String.ofList (trim (inner.dropWhile Char.isAlpha)) := by
  have htrim : trim (fence ++ (inner ++ fence)) = fence ++ (inner ++ fence) := by
    have hbetween := trim_between (c := '\x60') (d := '\x60') (by decide) (by decide)
      (['\x60', '\x60'] ++ inner ++ ['\x60', '\x60'])
    simpa [fence] using hbetween
  unfold stripFences
  dsimp only
  rw [String.toList_ofList, htrim, fenced?_fence]
  dsimp only
  rw [trim_trimLeft]

/-- An answer that is not between fences is given as it is. -/
theorem stripFences_of_not_fenced {reply : String}
    (h : ¬ (fence <+: trim reply.toList ∧ fence <:+ trim reply.toList)) :
    stripFences reply = String.ofList (trim reply.toList) := by
  have hnone : fenced? (trim reply.toList) = none := by
    unfold fenced?
    split
    · rename_i hprefix
      dsimp only
      split
      · rename_i hsuffix
        refine absurd ⟨List.isPrefixOf_iff_prefix.mp hprefix, ?_⟩ h
        apply (List.isSuffixOf_iff_suffix.mp hsuffix).trans
        apply (List.dropWhile_suffix _).trans
        exact (List.dropWhile_suffix _).trans (List.drop_suffix _ _)
      · rfl
    · rfl
  unfold stripFences
  dsimp only
  rw [hnone]

/-- Letters at the front are lost, and only they. -/
theorem trim_dropWhile_eq_iff {body : List Char} (hbody : trim body = body) :
    trim (body.dropWhile Char.isAlpha) = body ↔ ∀ c ∈ body.head?, c.isAlpha = false := by
  cases body with
  | nil => simp [trim, trimLeft]
  | cons c r =>
    by_cases hc : c.isAlpha = true
    · rw [List.dropWhile_cons_of_pos hc]
      constructor
      · intro h
        have hlength : (trim (r.dropWhile Char.isAlpha)).length ≤ r.length := by
          obtain ⟨front, hfront, _⟩ := trimLeft_eq (r.dropWhile Char.isAlpha)
          obtain ⟨back, hback, _⟩ := trimRight_eq (trimLeft (r.dropWhile Char.isAlpha))
          have hdrop := (List.dropWhile_suffix Char.isAlpha (l := r)).length_le
          have hleft := congrArg List.length hfront
          have hright := congrArg List.length hback
          rw [List.length_append] at hleft hright
          unfold trim
          omega
        rw [h, List.length_cons] at hlength
        omega
      · intro h
        rw [h c rfl] at hc
        cases hc
    · rw [List.dropWhile_cons_of_neg hc, hbody]
      simp [hc]

/-- Drafts between fences.  On lines of its own a draft is recovered, whatever letters the tag has;
right between the fences it loses the letters at its front, so it is recovered if and only if it
does not begin with a letter.  An answer that does not both begin and end with a fence only loses
the blanks around it. -/
theorem draft_between_fences {tag body : String} (htag : ∀ c ∈ tag.toList, c.isAlpha = true)
    (hbody : trim body.toList = body.toList) :
    let mark := String.ofList fence
    stripFences (mark ++ tag ++ "\n" ++ body ++ "\n" ++ mark) = body ∧
      stripFences (mark ++ body ++ mark) =
        String.ofList (trim (body.toList.dropWhile Char.isAlpha)) ∧
      (stripFences (mark ++ body ++ mark) = body ↔ ∀ c ∈ body.toList.head?, c.isAlpha = false) ∧
      ∀ reply : String, ¬ (fence <+: trim reply.toList ∧ fence <:+ trim reply.toList) →
        stripFences reply = String.ofList (trim reply.toList) := by
  intro mark
  have hlines : mark ++ tag ++ "\n" ++ body ++ "\n" ++ mark =
      String.ofList (fence ++ (tag.toList ++ '\n' :: (body.toList ++ ['\n']) ++ fence)) := by
    apply String.ext
    simp [mark]
  have hclose : mark ++ body ++ mark = String.ofList (fence ++ (body.toList ++ fence)) := by
    apply String.ext
    simp [mark]
  refine ⟨?_, ?_, ?_, fun reply => stripFences_of_not_fenced⟩
  · have hdrop : tag.toList.dropWhile Char.isAlpha = [] := List.dropWhile_eq_nil_iff.mpr htag
    rw [hlines, stripFences_fence, dropWhile_append_cons (by decide), hdrop, List.nil_append,
      trim_cons_blank (by decide), trim_concat_blank (by decide), hbody, String.ofList_toList]
  · rw [hclose, stripFences_fence]
  · rw [hclose, stripFences_fence, ← trim_dropWhile_eq_iff hbody]
    constructor
    · intro h
      exact String.toList_ofList.symm.trans (congrArg String.toList h)
    · intro h
      rw [h, String.ofList_toList]

theorem draft_between_fences_selectOne :
    let mark := String.ofList fence
    (∀ c ∈ "sql".toList, c.isAlpha = true) ∧ trim "SELECT 1".toList = "SELECT 1".toList ∧
      stripFences (mark ++ "sql" ++ "\n" ++ "SELECT 1" ++ "\n" ++ mark) = "SELECT 1" := by
  have htag : ∀ c ∈ "sql".toList, c.isAlpha = true := List.all_eq_true.mp (by decide)
  have hbody : trim "SELECT 1".toList = "SELECT 1".toList := by decide +kernel
  exact ⟨htag, hbody, (draft_between_fences htag hbody).1⟩

/-- The first word of a statement right behind the fence is taken for the tag. -/
theorem first_word_lost :
    let mark := String.ofList fence
    trim "SELECT 1".toList = "SELECT 1".toList ∧
      stripFences (mark ++ "SELECT 1" ++ mark) = "1" ∧ "1" ≠ "SELECT 1" := by
  decide +kernel

end Assistant
end QueryGate
