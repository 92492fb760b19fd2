import QueryGate.Proofs.Ask.Safety
import QueryGate.Proofs.Indexed.Acceptance
import QueryGate.Proofs.Indexed.Answers
import QueryGate.Proofs.Template.Reading

/-!
# Templates pass both checks

A template with any tenant and any period in its gaps is accepted by the guard, and it is scoped to
that tenant and to no other.  So a question with an intent never fails because of a check.  A tenant
with too many digits to be written has no template, and no template is accepted for it.
-/

namespace QueryGate
namespace Template

open Sql Guard Question
open Indexed (HasText)

/-! ### The blocks of a template -/

theorem listFrame_fits : listFrame.Fits := by decide +kernel

theorem countFrame_fits : countFrame.Fits := by decide +kernel

theorem namedFrame_fits : (namedFrame "completed_opening_checks").Fits ∧
    (namedFrame "completed_closing_checks").Fits := by
  decide +kernel

/-- A block on checks with fixed conditions in front of the period fits. -/
theorem checkBlock_fits {f : Frame} (hf : f.Fits) {us : List (List Token)}
    (hus : us ⊆ checkConditions) (p : Period) :
    (⟨f, us ++ periodConditions "d" "date" p⟩ : Block).Fits := by
  refine ⟨hf, fun u hu => ?_⟩
  rcases List.mem_append.mp hu with hu | hu
  · exact isCondition_checks.1 u (hus hu)
  · exact isCondition_period isCondition_checks.2 p u hu

theorem blocks_fit (intent : Intent) (p : Period) (failedOnly : Bool) :
    ∀ b ∈ blocks intent p failedOnly, b.Fits := by
  have hcore := Reading.block_fits Reading.reads_core p failedOnly
  have hhot := Reading.block_fits Reading.reads_hotHold p failedOnly
  have hfridge := Reading.block_fits Reading.reads_fridge p failedOnly
  have checks {f : Frame} (hf : f.Fits) (us : List (List Token)) (hus : us ⊆ checkConditions) :
      ∀ b ∈ [(⟨f, us ++ periodConditions "d" "date" p⟩ : Block)], b.Fits := by
    intro b hb
    rw [List.mem_singleton.mp hb]
    exact checkBlock_fits hf hus p
  cases intent with
  | openingChecks =>
    exact checks namedFrame_fits.1 [kindCondition "opening", doneCondition]
      (by simp [checkConditions])
  | closingChecks =>
    exact checks namedFrame_fits.2 [kindCondition "closing", doneCondition]
      (by simp [checkConditions])
  | outstandingChecks =>
    exact checks listFrame_fits [openCondition "is_completed", openCondition "status"]
      (by simp [checkConditions])
  | weeklyCompletedChecks =>
    exact checks countFrame_fits [doneCondition] (by simp [checkConditions])
  | hotHoldingReadings => simpa [blocks] using hhot
  | coreTemperatureReadings => simpa [blocks] using hcore
  | fridgeReadings => simpa [blocks] using hfridge
  | temperatureRollup => simpa [blocks] using ⟨fits_cut hcore, fits_cut hhot, hfridge⟩
  | completedChecks => exact checks listFrame_fits [doneCondition] (by simp [checkConditions])

theorem blocks_ne_nil (intent : Intent) (p : Period) (failedOnly : Bool) :
    blocks intent p failedOnly ≠ [] := by
  cases intent <;> simp [blocks]

/-- The last block of a template has a limit. -/
theorem blocks_limited (intent : Intent) (p : Period) (failedOnly : Bool) :
    (((blocks intent p failedOnly).map (·.frame.query)).getLast?.bind Query.limit).isSome = true := by
  have hall : ∀ f ∈ [namedFrame "completed_opening_checks", namedFrame "completed_closing_checks",
      listFrame, countFrame, coreReading.frame, hotHoldReading.frame, fridgeReading.frame],
      f.query.limit.isSome = true := by
    decide
  simp only [List.mem_cons, List.not_mem_nil, or_false, forall_eq_or_imp, forall_eq] at hall
  obtain ⟨hopening, hclosing, hlist, hcount, hcore, hhot, hfridge⟩ := hall
  cases intent with
  | openingChecks => exact hopening
  | closingChecks => exact hclosing
  | outstandingChecks => exact hlist
  | weeklyCompletedChecks => exact hcount
  | hotHoldingReadings => exact hhot
  | coreTemperatureReadings => exact hcore
  | fridgeReadings => exact hfridge
  | temperatureRollup => exact hfridge
  | completedChecks => exact hlist

theorem united_append (u v w ending : List Token) :
    united [u, v, w ++ ending] = united [u, v, w] ++ ending := by
  simp [united]

/-- A template is read as its blocks. -/
theorem fragment_text (intent : Intent) (tenant : Nat) (p : Period) (failedOnly : Bool) :
    Fragment (text intent tenant p failedOnly).toList
      (statement (Nat.toDigits 10 tenant) (blocks intent p failedOnly)) := by
  have single {b : Block} {body : String} (hending : b.frame.ending = limited)
      (h : Fragment body.toList (b.cut.tokens (Nat.toDigits 10 tenant))) :
      Fragment (body ++ "\nLIMIT " ++ toString rowLimit).toList
        (statement (Nat.toDigits 10 tenant) [b]) := by
    show Fragment _ (b.tokens (Nat.toDigits 10 tenant))
    rw [tokens_eq_cut, hending]
    exact fragment_limited h
  have byId {b : Block} {body : String} (hending : b.frame.ending = ordered (columnOf "d" "id"))
      (h : Fragment body.toList (b.cut.tokens (Nat.toDigits 10 tenant))) :
      Fragment (body ++ "\nORDER BY d.id DESC" ++ "\nLIMIT " ++ toString rowLimit).toList
        (statement (Nat.toDigits 10 tenant) [b]) := by
    show Fragment _ (b.tokens (Nat.toDigits 10 tenant))
    rw [tokens_eq_cut, hending]
    simpa [ordered] using fragment_limited (fragment_ordered h).1
  have latest (r : Reading) (hr : r.Reads)
      (hending : r.frame.ending = ordered [named "recorded_at"]) :
      Fragment (readings r.probe tenant p failedOnly ++ latestFirst ++ "\nLIMIT " ++
          toString rowLimit).toList
        (statement (Nat.toDigits 10 tenant) [r.block p failedOnly]) := by
    show Fragment _ ((r.block p failedOnly).tokens (Nat.toDigits 10 tenant))
    have hframe : (r.block p failedOnly).frame.ending = r.frame.ending := rfl
    rw [tokens_eq_cut, hframe, hending]
    simpa [ordered] using
      fragment_limited (fragment_ordered (Reading.fragment_readings hr p failedOnly tenant)).2
  cases intent with
  | openingChecks =>
    exact single rfl
      (fragment_namedChecks "opening" tenant p checksRead.opening checksRead.countOpening)
  | closingChecks =>
    exact single rfl
      (fragment_namedChecks "closing" tenant p checksRead.closing checksRead.countClosing)
  | outstandingChecks => exact byId rfl (fragment_outstandingChecks tenant p)
  | weeklyCompletedChecks => exact single rfl (fragment_completedCheckCount tenant p)
  | hotHoldingReadings => exact latest hotHoldReading Reading.reads_hotHold rfl
  | coreTemperatureReadings => exact latest coreReading Reading.reads_core rfl
  | fridgeReadings => exact latest fridgeReading Reading.reads_fridge rfl
  | temperatureRollup =>
    have hwhole := fragment_limited (fragment_ordered (fragment_allReadings tenant p failedOnly)).2
    have htokens : statement (Nat.toDigits 10 tenant) (blocks .temperatureRollup p failedOnly) =
        united [_, _, (fridgeReading.block p failedOnly).tokens (Nat.toDigits 10 tenant)] := rfl
    rw [htokens, tokens_eq_cut _ (fridgeReading.block p failedOnly), united_append]
    rw [List.append_assoc] at hwhole
    exact hwhole
  | completedChecks => exact byId rfl (fragment_completedChecks tenant p)

/-! ### The text of a template -/

/-- Whether a text opens a block and goes on with no further blank. -/
def Opens (cs : List Char) : Prop :=
  ∃ r, cs = Keyword.select.letters ++ ' ' :: r ∧ r ≠ [] ∧ Text.startsBlank r = false

theorem opens_append {a : List Char} (h : Opens a) (b : List Char) : Opens (a ++ b) := by
  obtain ⟨r, rfl, hne, hstart⟩ := h
  obtain ⟨c, r, rfl⟩ := List.exists_cons_of_ne_nil hne
  exact ⟨c :: r ++ b, by simp, by simp, hstart⟩

theorem opens_block {c : Char} {first : String} {select conditions : List String} {tables : String}
    (hfirst : first.toList.head? = some c) (hc : Text.isBlank c = false) :
    Opens (block (first :: select) tables conditions).toList := by
  obtain ⟨cs, hfirst⟩ := List.head?_eq_some_iff.mp hfirst
  have hselect : ∃ rest, (",\n       ".intercalate (first :: select)).toList = c :: rest := by
    cases select with
    | nil => exact ⟨cs, by rw [String.intercalate_singleton, hfirst]⟩
    | cons second select =>
      rw [String.intercalate_cons_cons, String.toList_append, String.toList_append, hfirst]
      exact ⟨_, rfl⟩
  obtain ⟨rest, hrest⟩ := hselect
  unfold block
  simp only [String.toList_append, hrest]
  refine opens_append (opens_append (opens_append (opens_append ?_ _) _) _) _
  exact ⟨c :: rest, rfl, by simp, hc⟩

theorem opens_body (intent : Intent) (tenant : Nat) (p : Period) (failedOnly : Bool) :
    Opens (body intent tenant p failedOnly).toList := by
  have named (kind : String) : Opens (namedChecks kind tenant p).toList := by
    refine opens_block (c := 'C') ?_ (by decide)
    simp
  have reading (probe : Probe) {c : Char} (h : (probe.aliasName ++ ".id").toList.head? = some c)
      (hc : Text.isBlank c = false) : Opens (readings probe tenant p failedOnly).toList :=
    opens_block h hc
  have hcore := reading coreProbe (c := 'c') rfl (by decide)
  have hhot := reading hotHoldProbe (c := 'h') rfl (by decide)
  have hfridge := reading fridgeProbe (c := 's') rfl (by decide)
  have ordered {s : String} (h : Opens s.toList) (order : String) : Opens (s ++ order).toList := by
    rw [String.toList_append]
    exact opens_append h _
  cases intent with
  | openingChecks => exact named "opening"
  | closingChecks => exact named "closing"
  | outstandingChecks => exact ordered (opens_block (c := 'd') rfl (by decide)) _
  | weeklyCompletedChecks => exact opens_block (c := 'C') rfl (by decide)
  | hotHoldingReadings => exact ordered hhot _
  | coreTemperatureReadings => exact ordered hcore _
  | fridgeReadings => exact ordered hfridge _
  | temperatureRollup =>
    refine ordered ?_ _
    unfold allReadings
    rw [List.map_cons, List.map_cons, String.intercalate_cons_cons, String.append_assoc]
    exact ordered hcore _
  | completedChecks => exact ordered (opens_block (c := 'd') rfl (by decide)) _

theorem opens_text (intent : Intent) (tenant : Nat) (p : Period) (failedOnly : Bool) :
    Opens (text intent tenant p failedOnly).toList := by
  unfold text
  rw [String.toList_append, String.toList_append]
  exact opens_append (opens_append (opens_body intent tenant p failedOnly) _) _

theorem getLast?_text (intent : Intent) (tenant : Nat) (p : Period) (failedOnly : Bool) :
    (text intent tenant p failedOnly).toList.getLast? = some '0' := by
  have hrows : (toString rowLimit).toList.getLast? = some '0' := by decide
  unfold text
  rw [String.toList_append, List.getLast?_append, hrows]
  rfl

/-! ### The checks -/

/-- A template is accepted by the guard. -/
theorem accepts_text (intent : Intent) (tenant : Nat) (p : Period) (failedOnly : Bool) :
    Guard.accepts Policy.shipped (text intent tenant p failedOnly).toList = true := by
  have hfragment := fragment_text intent tenant p failedOnly
  obtain ⟨r, hr, hne, hstart⟩ := opens_text intent tenant p failedOnly
  have hlast : r.getLast? = some '0' := by
    have htext := getLast?_text intent tenant p failedOnly
    rw [hr, List.getLast?_append, List.getLast?_cons] at htext
    simpa [List.getLast?_eq_some_getLast hne] using htext
  rw [hr] at hfragment ⊢
  unfold Guard.accepts
  rw [check_statement (blocks_ne_nil intent p failedOnly) (blocks_fit intent p failedOnly)
    (blocks_limited intent p failedOnly) hfragment hstart hlast (by decide)]

/-- A template is scoped to the tenant that is filled in, and to no other. -/
theorem holds_text (intent : Intent) (tenant : Nat) (p : Period) (failedOnly : Bool) (other : Int) :
    Scope.holds Policy.shipped.tenantColumn other (text intent tenant p failedOnly).toList = true ↔
      other = tenant := by
  have hread := tokenize_eq_ok_iff.mpr (fragment_text intent tenant p failedOnly).reads
  have htrim : (Text.trim (text intent tenant p failedOnly).toList).isEmpty = false := by
    obtain ⟨r, hr, _, _⟩ := opens_text intent tenant p failedOnly
    obtain ⟨front, hfront⟩ := List.getLast?_eq_some_iff.mp (getLast?_text intent tenant p failedOnly)
    unfold Text.trim
    rw [Text.trimLeft_of_not_startsBlank (by rw [hr]; rfl), hfront,
      Text.trimRight_concat (by decide)]
    simp
  rw [holds_statement other (blocks_ne_nil intent p failedOnly) (blocks_fit intent p failedOnly)
    (Text.isDigits_toDigits tenant) hread htrim, Text.digitsValue_toDigits]
  exact eq_comm

/-- The guard accepts a template by place. -/
theorem validate_text (intent : Intent) (tenant : Nat) (p : Period) (failedOnly : Bool) :
    Indexed.validate Policy.shipped (.text (text intent tenant p failedOnly)) = .ok .accepted := by
  have hbound : HasText Policy.shipped.maxLimit := by decide +kernel
  rw [Indexed.validate_eq _ (Or.inl hbound)]
  exact congrArg Except.ok
    (Verdict.ofText_eq_accepted_iff.mpr (accepts_text intent tenant p failedOnly))

/-- By place a template is accepted for the tenant that is filled in, if that can be written, and
for no other. -/
theorem checkValues_text (intent : Intent) {tenant : Nat} (h : HasText tenant) (p : Period)
    (failedOnly : Bool) (other : Int) :
    Indexed.checkValues Policy.shipped.tenantColumn (.text (text intent tenant p failedOnly))
      (.int other) = .ok (.ok ()) ↔ other = tenant := by
  show Indexed.checkScope _ other _ = .ok (.ok ()) ↔ _
  rw [Indexed.checkScope_eq_ok_iff, holds_text]
  constructor
  · exact And.right
  · rintro rfl
    exact ⟨h, rfl⟩

/-! ### Questions -/

theorem forQuestion_some {question : List Char} {tenant : Nat} {period : Option Period}
    {now : Moment} {s : Statement}
    (h : forQuestion question tenant period now = .ok (some s)) :
    HasText tenant ∧ ∃ intent p, s.text = text intent tenant p
      (intent.hasFailureFilter && speaksOfFailure question) := by
  obtain ⟨_, hnone⟩ | ⟨htext, intent, p, _, _, hs⟩ := forQuestion_eq_ok h
  · cases hnone
  · cases hs
    exact ⟨htext, intent, p, rfl⟩

/-- With an intent and a period there is a statement just for the tenants that can be written. -/
theorem exists_forQuestion_iff {question : List Char} {tenant : Nat} {period : Option Period}
    {now : Moment} {intent : Intent} (hintent : Intent.ofText? question = some intent)
    (hperiod : (period.or (defaultPeriod? intent now)).isSome = true) :
    (∃ s, forQuestion question tenant period now = .ok (some s)) ↔ HasText tenant := by
  constructor
  · rintro ⟨s, hs⟩
    exact (forQuestion_some hs).1
  · intro htext
    obtain ⟨p, hp⟩ := Option.isSome_iff_exists.mp hperiod
    exact ⟨_, by simp only [forQuestion, hintent, hp, if_pos htext]; rfl⟩

/-- Of a question only its intent and whether it speaks of failures get into a statement. -/
theorem forQuestion_congr {question other : List Char}
    (hintent : Intent.ofText? other = Intent.ofText? question)
    (hfailure : speaksOfFailure other = speaksOfFailure question) (tenant : Nat)
    (period : Option Period) (now : Moment) :
    forQuestion other tenant period now = forQuestion question tenant period now := by
  unfold forQuestion
  rw [hintent, hfailure]

theorem forValues_int (question : String) (n : Nat) (period : Option Period) (now : Moment) :
    forValues (.text question) (.int n) period now = forQuestion question.toList n period now := by
  simp only [forValues, tenantOf, if_pos (Int.natCast_nonneg n), Int.toNat_natCast]

end Template

namespace Ask

open Assistant Question
open Indexed (HasText)

/-- The statement chosen for a question with an intent passes both checks. -/
theorem isCleared_of_choose {ctx : Context} {question : String} {tenant : Tenant}
    {provider : String} {choice : Choice}
    (hintent : (Intent.ofText? question.toList).isSome = true)
    (h : choose ctx question tenant (Question.period? question ctx.now) provider false =
      .ok choice) :
    choice.verdict = .accepted ∧ inScope choice.statement tenant = true := by
  obtain ⟨hverdict, horigin⟩ := choose_ok h
  have htemplate : IsTemplate ctx question tenant choice.statement := by
    cases hrequests : choice.requests with
    | nil =>
      rw [hrequests] at horigin
      cases horigin with
      | template _ htemplate => exact htemplate
    | cons request more =>
      rw [hrequests] at horigin
      cases horigin with
      | draft hnone =>
        rcases hnone with hnone | hnone
        · cases hnone
        · rw [hnone] at hintent
          cases hintent
  obtain ⟨intent, p, _, hid, _, htext⟩ := htemplate
  refine ⟨?_, ?_⟩
  · rw [hverdict]
    refine Verdict.ofText_eq_accepted_iff.mpr ?_
    rw [htext]
    exact Template.accepts_text _ _ _ _
  · unfold inScope
    rw [htext, Template.holds_text]
    omega

/-- A statement that passes both checks fails in the database only. -/
theorem failure_of_conclude {ctx : Context} {provider : String} {execute : Bool}
    {o final : Outcome} (hfresh : o.failure = none) (hverdict : o.verdict = .accepted)
    (hscope : inScope o.statement o.tenant = true)
    (h : conclude ctx provider execute o = .ok final) :
    ∀ f, final.failure = some f → ∃ detail, f = .execution detail := by
  have unfailed {failure : Option Failure} (hnone : failure = none) :
      ∀ f, failure = some f → ∃ detail, f = .execution detail := by
    intro f hf
    rw [hnone] at hf
    cases hf
  simp only [conclude, hverdict, hscope, if_true] at h
  cases execute with
  | false =>
    cases h
    exact unfailed hfresh
  | true =>
    simp only [if_true, run] at h
    split at h
    · rename_i e _ _
      cases h
      intro f hf
      cases hf
      exact ⟨e.message, rfl⟩
    · split at h
      · cases h
      · cases h
        exact unfailed hfresh

/-- An explanation is of a chosen statement, with the failure that its checks foresee. -/
theorem explain_ok {ctx : Context} {r : Request} {o : Outcome} (h : explain ctx r = .ok o) :
    ∃ question provider tenant choice, r.question = .text question ∧
      choose ctx question tenant (Question.period? question ctx.now) provider r.withoutTemplate =
        .ok choice ∧
      o.failure = foreseen choice.verdict (inScope choice.statement tenant) := by
  unfold explain at h
  cases hquestion : questionText? r.question with
  | none =>
    rw [hquestion] at h
    cases h
  | some question =>
    cases htenant : resolveTenant? question.toList r.caller ctx.settings.defaultTenantId with
    | none =>
      simp only [hquestion, htenant] at h
      cases h
    | some tenant =>
      cases hprovider : providerOf ctx.settings r.mode with
      | error e =>
        simp only [hquestion, htenant, hprovider] at h
        cases h
      | ok provider =>
        cases hchoice : choose ctx question tenant (Question.period? question ctx.now) provider
            r.withoutTemplate with
        | error e =>
          simp only [hquestion, htenant, hprovider, bind, Except.bind, hchoice] at h
          cases h
        | ok choice =>
          simp only [hquestion, htenant, hprovider, bind, Except.bind, hchoice] at h
          cases h
          exact ⟨question, provider, tenant, choice, text_of_questionText? hquestion, hchoice, rfl⟩

/-- A question with an intent fails in the database only, whether it is answered or explained. -/
theorem failure_of_intent {ctx : Context} {r : Request} {o : Outcome} {question : String}
    (hintent : (Intent.ofText? question.toList).isSome = true)
    (hquestion : r.question = .text question) (hfirst : r.withoutTemplate = false)
    (h : ask ctx r = .ok o ∨ explain ctx r = .ok o) :
    ∀ f, o.failure = some f → ∃ detail, f = .execution detail := by
  rcases h with hask | hexplain
  · rcases ask_cases ctx r with ⟨e, he, _⟩ | ⟨asked, provider, tenant, choice, hasked, _, hchoice,
      hconclude⟩
    · rw [show ask ctx r = .error e from he ctx.database] at hask
      cases hask
    · obtain rfl : question = asked := Value.text.inj (hquestion.symm.trans hasked)
      rw [hfirst] at hchoice
      obtain ⟨hverdict, hscope⟩ := isCleared_of_choose hintent hchoice
      rw [show ask ctx r = _ from hconclude ctx.database] at hask
      refine failure_of_conclude ?_ ?_ ?_ hask
      · rfl
      · exact hverdict
      · exact hscope
  · obtain ⟨asked, provider, tenant, choice, hasked, hchoice, hfailure⟩ := explain_ok hexplain
    obtain rfl : question = asked := Value.text.inj (hquestion.symm.trans hasked)
    rw [hfirst] at hchoice
    obtain ⟨hverdict, hscope⟩ := isCleared_of_choose hintent hchoice
    rw [hverdict, hscope] at hfailure
    intro f hf
    rw [hfailure] at hf
    cases hf

/-- The templates of a question.  A statement made of it passes the guard, is scoped to the tenant
that is filled in and to no other, and is the statement of every question with the same intent and
the same say about failures; the scope check answers for every tenant that can be written.  Where
there is an intent and a period, there is a statement just for those tenants, and a question with an
intent fails in the database only. -/
theorem template_round_trip (question : String) :
    (∀ tenant period now s,
      Template.forValues (.text question) tenant period now = .ok (some s) →
      ∃ n : Nat, tenant = .int n ∧ HasText n ∧
        Indexed.validate Policy.shipped (.text s.text) = .ok .accepted ∧
        (∀ other : Int,
          Indexed.checkValues Policy.shipped.tenantColumn (.text s.text) (.int other) = .ok (.ok ()) ↔
            other = n) ∧
        (∀ other : Int, HasText other → ∃ checked,
          Indexed.checkValues Policy.shipped.tenantColumn (.text s.text) (.int other) =
            .ok checked) ∧
        ∀ similar : String, Intent.ofText? similar.toList = Intent.ofText? question.toList →
          speaksOfFailure similar.toList = speaksOfFailure question.toList →
          Template.forValues (.text similar) tenant period now = .ok (some s)) ∧
    ∀ intent, Intent.ofText? question.toList = some intent →
      (∀ (n : Nat) period now,
        (period.or (Template.defaultPeriod? intent now)).isSome = true →
        ((∃ s, Template.forValues (.text question) (.int n) period now = .ok (some s)) ↔
          HasText n)) ∧
      ∀ ctx r o, r.question = .text question → r.withoutTemplate = false →
        (ask ctx r = .ok o ∨ explain ctx r = .ok o) →
        ∀ f, o.failure = some f → ∃ detail, f = .execution detail := by
  refine ⟨?_, ?_⟩
  · intro tenant period now s hs
    obtain ⟨n, rfl, hquestion⟩ := Template.forValues_eq_ok hs
    obtain ⟨hn, intent, p, htext⟩ := Template.forQuestion_some hquestion
    refine ⟨n, rfl, hn, ?_, ?_, ?_, ?_⟩
    · rw [htext]
      exact Template.validate_text _ _ _ _
    · intro other
      rw [htext]
      exact Template.checkValues_text _ hn _ _ other
    · intro other hother
      exact ⟨_, Indexed.checkScope_eq hother s.text.toList⟩
    · intro similar hintent hfailure
      rw [Template.forValues_int, Template.forQuestion_congr hintent hfailure]
      exact hquestion
  · intro intent hintent
    refine ⟨?_, ?_⟩
    · intro n period now hperiod
      simp only [Template.forValues_int]
      exact Template.exists_forQuestion_iff hintent hperiod
    · intro ctx r o hquestion hfirst h
      exact failure_of_intent (by rw [hintent]; rfl) hquestion hfirst h

/-- A request for the opening checks of restaurant 7. -/
def openingRequest : Request := ⟨.text "opening checks", .int 7, .null, false, false⟩

/-- The question for opening checks has a template, which is the one of a question in other letters,
and its explanation does not fail in a check. -/
theorem template_round_trip_opening :
    (∃ s, Template.forValues (.text "opening checks") (.int 7) none someMoment = .ok (some s) ∧
      Indexed.validate Policy.shipped (.text s.text) = .ok .accepted ∧
      (∀ other : Int, Indexed.checkValues Policy.shipped.tenantColumn (.text s.text) (.int other) =
        .ok (.ok ()) ↔ other = 7) ∧
      (∃ checked, Indexed.checkValues Policy.shipped.tenantColumn (.text s.text) (.int 8) =
        .ok checked) ∧
      Template.forValues (.text "Show OPENING") (.int 7) none someMoment = .ok (some s)) ∧
    ∃ o, explain (withReply (.ok "")) openingRequest = .ok o ∧
      ∀ f, o.failure = some f → ∃ detail, f = .execution detail := by
  have hopening : Intent.ofText? "opening checks".toList = some .openingChecks := by decide
  have hsimilar : Intent.ofText? "Show OPENING".toList = Intent.ofText? "opening checks".toList ∧
      speaksOfFailure "Show OPENING".toList = speaksOfFailure "opening checks".toList := by
    decide
  have hperiod : (Template.defaultPeriod? .openingChecks someMoment).isSome = true := by
    decide
  have hseven : HasText (7 : Nat) := by decide +kernel
  have height : HasText 8 := by decide +kernel
  obtain ⟨hstatement, hintent⟩ := template_round_trip "opening checks"
  obtain ⟨hexists, hfailure⟩ := hintent .openingChecks hopening
  obtain ⟨s, hs⟩ := (hexists 7 none someMoment hperiod).mpr hseven
  refine ⟨?_, ?_⟩
  · obtain ⟨n, hn, _, hvalid, hscope, hanswers, hcongr⟩ := hstatement _ _ _ s hs
    obtain rfl : (7 : Nat) = n := Int.ofNat.inj (Value.int.inj hn)
    exact ⟨s, hs, hvalid, hscope, hanswers 8 height, hcongr _ hsimilar.1 hsimilar.2⟩
  · obtain ⟨provider, hprovider⟩ : ∃ name, providerOf Settings.default .null = .ok name := ⟨_, rfl⟩
    have hresolved : (resolveTenant? "opening checks".toList (.int 7)
        Settings.default.defaultTenantId).map (·.id) = some 7 := by
      decide
    obtain ⟨tenant, htenant, hid⟩ := Option.map_eq_some_iff.mp hresolved
    have hasked : ((Question.period? "opening checks" someMoment).or
        (Template.defaultPeriod? .openingChecks someMoment)).isSome = true := by
      rw [Option.isSome_or, hperiod, Bool.or_true]
    obtain ⟨s', hs'⟩ := (hexists 7 (Question.period? "opening checks" someMoment) someMoment
      hasked).mpr hseven
    have htemplate : templateFor "opening checks" tenant
        (Question.period? "opening checks" someMoment) someMoment = .ok (some s') := by
      unfold templateFor
      rw [hid]
      exact congrArg (·.mapError Fault.template) hs'
    have hquestion : questionText? (.text "opening checks") = some "opening checks" := rfl
    cases ho : explain (withReply (.ok "")) openingRequest with
    | ok o => exact ⟨o, rfl, hfailure _ _ o rfl rfl (Or.inr ho)⟩
    | error e =>
      simp only [explain, openingRequest, withReply, hquestion, hprovider, htenant, choose,
        htemplate, bind, Except.bind, pure, Except.pure, Bool.false_eq_true, if_false] at ho
      cases ho

end Ask
end QueryGate
