import QueryGate.Proofs.Ask.Safety

/-!
# Looking for a template again

Whether a question has a template does not depend on the period, so a question that had none before
its draft was rejected has none afterwards.  Choosing a statement with and without the second look
is one and the same, and a statement of a language model is chosen just when the question has no
intent.
-/

namespace QueryGate
namespace Ask

open Assistant Question

variable {ctx : Context} {question : String} {tenant : Tenant} {period : Option Period}
  {provider : String}

/-- The choice of a statement when a rejected draft is not given up for anything. -/
def chooseOnce (ctx : Context) (question : String) (tenant : Tenant) (period : Option Period)
    (provider : String) : Except Fault Choice :=
  match templateFor question tenant period ctx.now with
  | .error e => .error e
  | .ok (some s) => .ok ⟨s, review s, []⟩
  | .ok none =>
    match draft ctx.backend [] provider question tenant.id period with
    | (.error e, _) => .error (.assistant e)
    | (.ok s, requests) => .ok ⟨s, review s, requests⟩

/-! ### The period does not matter -/

theorem forQuestion_eq_none {q : List Char} {id : Nat} {p? : Option Period} {now : Moment}
    (h : Intent.ofText? q = none) : Template.forQuestion q id p? now = .ok none := by
  rw [Template.forQuestion, h]

theorem isNone_forQuestion {q : List Char} {id : Nat} {p? : Option Period} {now : Moment}
    {s? : Option Statement} (h : Template.forQuestion q id p? now = .ok s?) :
    s? = none ↔ Intent.ofText? q = none := by
  obtain ⟨hnone, rfl⟩ | ⟨_, intent, p, hintent, _, rfl⟩ := Template.forQuestion_eq_ok h
  · exact iff_of_true rfl hnone
  · rw [hintent]
    exact iff_of_false nofun nofun

/-- Of two looks for a template that both end, one finds a template just when the other does. -/
theorem forValues_eq_none_iff {q id : Value} {p? p'? : Option Period} {now : Moment}
    {first again : Option Statement} (hfirst : Template.forValues q id p? now = .ok first)
    (hagain : Template.forValues q id p'? now = .ok again) : first = none ↔ again = none := by
  unfold Template.forValues at hfirst hagain
  split at hfirst
  · cases hfirst
  · rename_i n hn
    simp only [hn] at hagain
    split at hfirst
    · rw [isNone_forQuestion hfirst, isNone_forQuestion hagain]
    · cases hfirst
      simp_all

theorem templateFor_of_no_intent (hid : 0 ≤ tenant.id) (h : Intent.ofText? question.toList = none)
    (p? : Option Period) (now : Moment) : templateFor question tenant p? now = .ok none := by
  simp only [templateFor, Template.forValues, Template.tenantOf, if_pos hid, forQuestion_eq_none h]
  rfl

/-- A question that has no template in one period is left without one in the usual period. -/
theorem retry_eq_first {p? : Option Period} {now : Moment} {first : Choice}
    (h : templateFor question tenant p? now = .ok none) :
    retry question tenant now first = .ok first := by
  have hid := (forValues_of_templateFor h).1
  rw [retry, templateFor_of_no_intent hid (templateFor_none h)]
  rfl

/-! ### Where a statement comes from -/

theorem provenance_of_templateFor {s : Statement} {p? : Option Period} {now : Moment}
    (h : templateFor question tenant p? now = .ok (some s)) : s.provenance = .template := by
  obtain ⟨_, h⟩ := forValues_of_templateFor h
  obtain ⟨_, hnone⟩ | ⟨_, _, _, _, _, hs⟩ := Template.forQuestion_eq_ok h
  · cases hnone
  · cases hs
    rfl

theorem provenance_of_draft {s : Statement} {requests : History}
    (h : draft ctx.backend [] provider question tenant.id period = (.ok s, requests)) :
    s.provenance = .external := by
  obtain ⟨_, reply, _, _, _, rfl⟩ := request_of_draft h
  unfold statementOf Statement.withLimit
  split <;> rfl

/-! ### Choosing once -/

theorem choose_eq_chooseOnce (ctx : Context) (question : String) (tenant : Tenant)
    (period : Option Period) (provider : String) :
    choose ctx question tenant period provider false =
      chooseOnce ctx question tenant period provider := by
  unfold choose chooseOnce
  cases htemplate : templateFor question tenant period ctx.now with
  | error e => rfl
  | ok s? =>
    cases s? with
    | some s => rfl
    | none =>
      rcases hdraft : draft ctx.backend [] provider question tenant.id period with ⟨answer, requests⟩
      cases answer with
      | error e => rfl
      | ok s =>
        cases hreview : review s with
        | accepted =>
          simp only [hreview]
          rfl
        | rejected why =>
          simp only [hreview]
          exact retry_eq_first htemplate

/-- Looking for a template again never yields a statement: both looks find a template or neither
does, a statement of a language model is chosen just when the question has no intent, and a draft
that the guard rejects is chosen as it is, with the rejection. -/
theorem retry_yields_nothing (ctx : Context) (question : String) (tenant : Tenant)
    (period : Option Period) (provider : String) :
    (∀ q id first again, Template.forValues q id period ctx.now = .ok first →
        Template.forValues q id none ctx.now = .ok again → (first = none ↔ again = none)) ∧
      choose ctx question tenant period provider false =
        chooseOnce ctx question tenant period provider ∧
      (∀ choice, choose ctx question tenant period provider false = .ok choice →
        (choice.statement.provenance = .external ↔ Intent.ofText? question.toList = none)) ∧
      ∀ s requests why, Intent.ofText? question.toList = none → 0 ≤ tenant.id →
        draft ctx.backend [] provider question tenant.id period = (.ok s, requests) →
        review s = .rejected why →
        choose ctx question tenant period provider false = .ok ⟨s, .rejected why, requests⟩ := by
  have hchoose := choose_eq_chooseOnce ctx question tenant period provider
  refine ⟨fun q id first again => forValues_eq_none_iff, hchoose, ?_, ?_⟩
  · intro choice hchoice
    rw [hchoose, chooseOnce] at hchoice
    split at hchoice
    · cases hchoice
    · rename_i s htemplate
      cases hchoice
      obtain ⟨intent, _, hintent, _⟩ := templateFor_some htemplate
      rw [provenance_of_templateFor htemplate, hintent]
      exact iff_of_false nofun nofun
    · rename_i htemplate
      split at hchoice
      · cases hchoice
      · rename_i s requests hdraft
        cases hchoice
        exact iff_of_true (provenance_of_draft hdraft) (templateFor_none htemplate)
  · intro s requests why hintent hid hdraft hwhy
    rw [hchoose, chooseOnce, templateFor_of_no_intent hid hintent]
    simp only [hdraft, hwhy]

/-- The week that the day of the moment begins. -/
def someWeek : Period := ⟨someMoment.date, ⟨2025, 9, 17, by decide⟩, none, by decide⟩

/-- A draft that the guard rejects is chosen as it is for a question without an intent, and a
question with an intent has a template in a given period and in the usual one. -/
theorem retry_yields_nothing_rejectedDraft :
    (∃ requests, Intent.ofText? "x".toList = none ∧
      draft (withReply (.ok "DROP TABLE check")).backend [] "mock" "x" 7 (some someWeek) =
        (.ok (statementOf "DROP TABLE check"), requests) ∧
      review (statementOf "DROP TABLE check") = .rejected .notSelect ∧
      choose (withReply (.ok "DROP TABLE check")) "x" ⟨7, .caller⟩ (some someWeek) "mock" false =
        .ok ⟨statementOf "DROP TABLE check", .rejected .notSelect, requests⟩ ∧
      (statementOf "DROP TABLE check").provenance = .external) ∧
    ∃ first again,
      Template.forValues (.text "opening") (.int 7) (some someWeek) someMoment = .ok first ∧
      Template.forValues (.text "opening") (.int 7) none someMoment = .ok again ∧
      first ≠ none ∧ again ≠ none := by
  have htheorem := retry_yields_nothing (withReply (.ok "DROP TABLE check")) "x" ⟨7, .caller⟩
    (some someWeek) "mock"
  have hintent : Intent.ofText? "x".toList = none := by decide
  have hreview : review (statementOf "DROP TABLE check") = .rejected .notSelect := by
    decide +kernel
  have hchoose := htheorem.2.2.2 _ _ _ hintent (by decide) rfl hreview
  refine ⟨⟨_, hintent, rfl, hreview, hchoose, (htheorem.2.2.1 _ hchoose).mpr hintent⟩, ?_⟩
  have hopening : Intent.ofText? "opening".toList = some .openingChecks := by decide
  have hday : (Template.defaultPeriod? .openingChecks someMoment).isSome = true := by decide
  obtain ⟨usual, husual⟩ := Option.isSome_iff_exists.mp hday
  have look {p? : Option Period} {p : Period}
      (hp : p?.or (Template.defaultPeriod? .openingChecks someMoment) = some p) :
      Template.forValues (.text "opening") (.int 7) p? someMoment =
        .ok (some ⟨Template.text .openingChecks 7 p false, .template, some "opening_checks"⟩) := by
    have hid : Template.tenantOf (.int 7) = .ok 7 := rfl
    have htext : Indexed.HasText (7 : Nat) := by decide +kernel
    simp only [Template.forValues, hid, Template.forQuestion, hopening, hp, if_pos htext]
    rfl
  have hfirst := look (Option.some_or : (some someWeek).or _ = _)
  have hagain := look (Option.none_or.trans husual)
  exact ⟨_, _, hfirst, hagain, nofun, mt (htheorem.1 _ _ _ _ hfirst hagain).mpr nofun⟩

end Ask
end QueryGate
