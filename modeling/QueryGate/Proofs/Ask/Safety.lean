import QueryGate.Ask
import QueryGate.Proofs.Assistant.Fence
import QueryGate.Proofs.Database.Session

/-!
# What answering a question can do

Whatever the language model says and whatever the database does, the database is asked at most
once, and only for a statement that passed both checks.  The statement is a template's, or the
answer of the one request for a draft, which is made only when there is no template.  An outcome
with a failure has no rows and no answer.
-/

namespace QueryGate
namespace Ask

open Assistant Question

variable {ctx : Context} {question : String} {tenant : Tenant} {period : Option Period}
  {provider : String}

/-! ### Where a statement comes from -/

/-- Whether a statement is the template of a question for a tenant, in the period of the question or
in the usual one. -/
def IsTemplate (ctx : Context) (question : String) (tenant : Tenant) (s : Statement) : Prop :=
  ∃ intent p, Intent.ofText? question.toList = some intent ∧ 0 ≤ tenant.id ∧
    ((Question.period? question ctx.now).or (Template.defaultPeriod? intent ctx.now) = some p ∨
      Template.defaultPeriod? intent ctx.now = some p) ∧
    s.text = Template.text intent tenant.id.toNat p
      (intent.hasFailureFilter && speaksOfFailure question.toList)

/-- Whether a request asks for a draft. -/
def asksForDraft (question : String) (tenant : Tenant) (period : Option Period)
    (request : Assistant.Request) : Prop :=
  request.prompt = userPrompt question period ∧
    request.system = systemPrompt Policy.shipped (toString tenant.id)

/-- Whether a text is an answer without its fences, with a limit behind it or without. -/
def isAnswer (reply text : String) : Prop :=
  text = stripFences reply ∨
    text = stripFences reply ++ " LIMIT " ++ toString Policy.shipped.maxLimit

theorem text_statementOf (reply : String) : isAnswer reply (statementOf reply).text := by
  have htrim : Text.trimRight (stripFences reply).toList = (stripFences reply).toList := by
    unfold stripFences
    dsimp only
    split <;> simp [Text.trim, Text.trimRight_trimRight]
  unfold statementOf Statement.withLimit
  split
  · exact Or.inl rfl
  · refine Or.inr ?_
    simp only [htrim, String.ofList_toList]

theorem forValues_of_templateFor {p? : Option Period} {now : Moment} {s? : Option Statement}
    (h : templateFor question tenant p? now = .ok s?) :
    0 ≤ tenant.id ∧ Template.forQuestion question.toList tenant.id.toNat p? now = .ok s? := by
  unfold templateFor at h
  cases hfound : Template.forValues (.text question) (.int tenant.id) p? now with
  | error e =>
    rw [hfound] at h
    cases h
  | ok found =>
    rw [hfound] at h
    cases h
    obtain ⟨n, hn, hquestion⟩ := Template.forValues_eq_ok hfound
    rw [show tenant.id = n from Value.int.inj hn, Int.toNat_natCast]
    exact ⟨Int.natCast_nonneg n, hquestion⟩

theorem templateFor_some {s : Statement} {p? : Option Period} {now : Moment}
    (h : templateFor question tenant p? now = .ok (some s)) :
    ∃ intent p, Intent.ofText? question.toList = some intent ∧ 0 ≤ tenant.id ∧
      p?.or (Template.defaultPeriod? intent now) = some p ∧
      s.text = Template.text intent tenant.id.toNat p
        (intent.hasFailureFilter && speaksOfFailure question.toList) := by
  obtain ⟨hid, h⟩ := forValues_of_templateFor h
  obtain ⟨_, hnone⟩ | ⟨_, intent, p, hintent, hp, hs⟩ := Template.forQuestion_eq_ok h
  · cases hnone
  · cases hs
    exact ⟨intent, p, hintent, hid, hp, rfl⟩

theorem templateFor_none {p? : Option Period} {now : Moment}
    (h : templateFor question tenant p? now = .ok none) :
    Intent.ofText? question.toList = none := by
  obtain ⟨_, h⟩ := forValues_of_templateFor h
  obtain ⟨hnone, _⟩ | ⟨_, _, _, _, _, hs⟩ := Template.forQuestion_eq_ok h
  · exact hnone
  · cases hs

theorem systemPrompt_ne_empty (a : AllowList) (t : String) :
    (systemPrompt a t).isEmpty = false := by
  have last (s : String) : s ++ "\n" ≠ "" :=
    fun hempty => absurd (String.append_eq_empty_iff.mp hempty).2 (by decide)
  rw [String.isEmpty_eq_false_iff]
  unfold systemPrompt
  exact last _

/-- An answer comes of one request. -/
theorem answer_of_ask {backend : Backend} {history requests : History}
    {prompt system answer : String}
    (h : Assistant.ask backend history provider prompt system = (.ok answer, requests)) :
    ∃ request, requests = history ++ [request] ∧ request.prompt = prompt ∧
      request.system = (if system.isEmpty then defaultSystem else system) ∧
      backend history request = .ok answer := by
  unfold Assistant.ask at h
  dsimp only at h
  split at h
  · cases h
  · rename_i p _
    rw [Prod.mk.injEq] at h
    exact ⟨_, h.2.symm, rfl, rfl, h.1⟩

/-- A draft comes of one request. -/
theorem request_of_draft {backend : Backend} {s : Statement} {requests : History}
    (h : draft backend [] provider question tenant.id period = (.ok s, requests)) :
    ∃ request reply, requests = [request] ∧ asksForDraft question tenant period request ∧
      backend [] request = .ok reply ∧ s = statementOf reply := by
  unfold draft at h
  rcases hask : Assistant.ask backend [] provider (userPrompt question period)
      (systemPrompt Policy.shipped (toString tenant.id)) with ⟨answer, made⟩
  rw [hask] at h
  cases answer with
  | error e => cases h
  | ok reply =>
    obtain ⟨hs, rfl⟩ := Prod.mk.inj h
    obtain rfl := Except.ok.inj hs
    obtain ⟨request, hmade, hprompt, hsystem, hreply⟩ := answer_of_ask hask
    rw [systemPrompt_ne_empty, if_neg Bool.false_ne_true] at hsystem
    exact ⟨request, reply, hmade, ⟨hprompt, hsystem⟩, hreply, rfl⟩

/-- Where a chosen statement comes from, and the requests made for it. -/
inductive Origin (ctx : Context) (question : String) (tenant : Tenant) (period : Option Period)
    (withoutTemplate : Bool) (s : Statement) : History → Prop where
  | template : withoutTemplate = false → IsTemplate ctx question tenant s →
      Origin ctx question tenant period withoutTemplate s []
  | draft {request reply} : withoutTemplate = true ∨ Intent.ofText? question.toList = none →
      asksForDraft question tenant period request → ctx.backend [] request = .ok reply →
      IsTemplate ctx question tenant s ∨ isAnswer reply s.text →
      Origin ctx question tenant period withoutTemplate s [request]

theorem retry_ok {first choice : Choice} {now : Moment}
    (h : retry question tenant now first = .ok choice) :
    choice = first ∨ ∃ s, templateFor question tenant none now = .ok (some s) ∧
      choice = { first with statement := s, verdict := .accepted } ∧ review s = .accepted := by
  unfold retry at h
  cases htemplate : templateFor question tenant none now with
  | error e =>
    rw [htemplate] at h
    cases h
  | ok s? =>
    rw [htemplate] at h
    cases s? with
    | none =>
      cases h
      exact Or.inl rfl
    | some s =>
      dsimp only [bind, Except.bind] at h
      cases hreview : review s with
      | accepted =>
        rw [hreview] at h
        cases h
        exact Or.inr ⟨s, rfl, rfl, hreview⟩
      | rejected why =>
        rw [hreview] at h
        cases h
        exact Or.inl rfl

/-- A draft that is accepted stands, and one that is rejected is given up for a template only. -/
theorem settle_ok {first choice : Choice} {now : Moment}
    (hfirst : first.verdict = review first.statement)
    (h : (match first.verdict with
      | .accepted => pure first
      | .rejected _ => retry question tenant now first) = Except.ok choice) :
    choice.verdict = review choice.statement ∧ choice.requests = first.requests ∧
      (choice.statement = first.statement ∨
        templateFor question tenant none now = .ok (some choice.statement)) := by
  split at h
  · cases h
    exact ⟨hfirst, rfl, Or.inl rfl⟩
  · rcases retry_ok h with rfl | ⟨s, htemplate, rfl, hreview⟩
    · exact ⟨hfirst, rfl, Or.inl rfl⟩
    · exact ⟨hreview.symm, rfl, Or.inr htemplate⟩

/-- A draft that is settled on has been looked at by the guard. -/
theorem drafted_ok {withoutTemplate : Bool} {choice : Choice}
    (hnone : withoutTemplate = true ∨ Intent.ofText? question.toList = none)
    (h : (match draft ctx.backend [] provider question tenant.id
        (Question.period? question ctx.now) with
      | (.error e, _) => throw (Fault.assistant e)
      | (.ok s, requests) =>
        let first : Choice := ⟨s, review s, requests⟩
        match first.verdict with
        | .accepted => pure first
        | .rejected _ => retry question tenant ctx.now first) = Except.ok choice) :
    choice.verdict = review choice.statement ∧
      Origin ctx question tenant (Question.period? question ctx.now) withoutTemplate
        choice.statement choice.requests := by
  split at h
  · cases h
  · rename_i s requests hdraft
    obtain ⟨request, reply, hrequests, hasks, hreply, hs⟩ := request_of_draft hdraft
    obtain ⟨hverdict, hmade, hstatement⟩ :=
      settle_ok (rfl : (Choice.mk s (review s) requests).verdict = _) h
    refine ⟨hverdict, ?_⟩
    rw [hmade, hrequests]
    refine .draft hnone hasks hreply ?_
    rcases hstatement with hstatement | htemplate
    · rw [hstatement, hs]
      exact Or.inr (text_statementOf reply)
    · obtain ⟨intent, p, hintent, hid, hp, htext⟩ := templateFor_some htemplate
      exact Or.inl ⟨intent, p, hintent, hid, Or.inr (by simpa using hp), htext⟩

/-- A chosen statement has been looked at by the guard, and comes from where it may. -/
theorem choose_ok {withoutTemplate : Bool} {choice : Choice}
    (h : choose ctx question tenant (Question.period? question ctx.now) provider withoutTemplate =
      .ok choice) :
    choice.verdict = review choice.statement ∧
      Origin ctx question tenant (Question.period? question ctx.now) withoutTemplate
        choice.statement choice.requests := by
  unfold choose at h
  cases withoutTemplate with
  | true => exact drafted_ok (Or.inl rfl) h
  | false =>
    cases htemplate : templateFor question tenant (Question.period? question ctx.now) ctx.now with
    | error e =>
      rw [htemplate] at h
      cases h
    | ok s? =>
      rw [htemplate] at h
      cases s? with
      | none => exact drafted_ok (Or.inr (templateFor_none htemplate)) h
      | some s =>
        cases h
        obtain ⟨intent, p, hintent, hid, hp, htext⟩ := templateFor_some htemplate
        exact ⟨rfl, .template rfl ⟨intent, p, hintent, hid, Or.inl hp, htext⟩⟩

/-! ### What is done with a statement -/

/-- Whether a statement passes both checks for a tenant. -/
def IsCleared (s : Statement) (tenant : Tenant) : Prop :=
  Guard.accepts Policy.shipped s.text.toList = true ∧
    Scope.holds Policy.shipped.tenantColumn tenant.id s.text.toList = true

/-- The session of an outcome: none, or one that runs its statement. -/
def RanOnlyIf (ctx : Context) (execute : Bool) (o : Outcome) : Prop :=
  o.calls = [] ∨ (execute = true ∧ IsCleared o.statement o.tenant ∧
    o.calls = (Database.execute ctx.database o.statement.text
      (.int ctx.settings.dbQueryTimeoutMs) []).2)

/-- An outcome in which nothing has happened yet. -/
structure IsFresh (o : Outcome) : Prop where
  failure : o.failure = none
  executed : o.executed = false
  rows : o.rows = []
  answer : o.answer = ""
  calls : o.calls = []

/-- What becomes of an outcome: it keeps what it is about, and either fails with nothing to show or
does not fail. -/
structure Concludes (ctx : Context) (execute : Bool) (o final : Outcome) : Prop where
  question : final.question = o.question
  tenant : final.tenant = o.tenant
  period : final.period = o.period
  statement : final.statement = o.statement
  session : RanOnlyIf ctx execute final
  summary : ∃ summaries, final.requests = o.requests ++ summaries ∧ summaries.length ≤ 1 ∧
    (summaries ≠ [] → final.executed = true)
  failed : ∀ f, final.failure = some f →
    final.executed = false ∧ final.rows = [] ∧ final.answer = ""

theorem requests_ofRows? {backend : Backend} {history requests : History}
    {mode question sql answer : String} {rows : List Row} {id : Int} {period : Option Period}
    (h : Summary.ofRows? backend history mode question sql rows id period =
      (some answer, requests)) :
    ∃ summaries, requests = history ++ summaries ∧ summaries.length ≤ 1 := by
  have kept : ∃ summaries : History, history = history ++ summaries ∧ summaries.length ≤ 1 :=
    ⟨[], (List.append_nil _).symm, Nat.zero_le 1⟩
  have asked (prompt : String) : ∃ summaries,
      (Assistant.ask backend history mode prompt "").2 = history ++ summaries ∧
        summaries.length ≤ 1 := by
    unfold Assistant.ask
    dsimp only
    split
    · exact kept
    · exact ⟨[_], rfl, Nat.le_refl 1⟩
  unfold Summary.ofRows? at h
  split at h
  · cases h
    exact kept
  split at h
  · cases h
    exact kept
  split at h
  · cases h
  · rename_i shown _
    obtain ⟨summaries, hsummaries, hlength⟩ :=
      asked (Summary.prompt question sql shown id period)
    split at h
    · rename_i hask
      cases h
      rw [hask] at hsummaries
      exact ⟨summaries, hsummaries, hlength⟩
    · rename_i hask
      cases h
      rw [hask] at hsummaries
      exact ⟨summaries, hsummaries, hlength⟩

theorem concludes_run {execute : Bool} {o final : Outcome} (hfresh : IsFresh o)
    (hexecute : execute = true) (hcleared : IsCleared o.statement o.tenant)
    (h : run ctx provider o = .ok final) : Concludes ctx execute o final := by
  unfold run at h
  split at h
  · rename_i e calls hcalls
    cases h
    exact ⟨rfl, rfl, rfl, rfl, Or.inr ⟨hexecute, hcleared, by rw [hcalls]⟩,
      ⟨[], (List.append_nil _).symm, Nat.zero_le 1, fun h => absurd rfl h⟩,
      fun f _ => ⟨hfresh.executed, hfresh.rows, hfresh.answer⟩⟩
  · rename_i rows calls hcalls
    split at h
    · cases h
    · rename_i answer requests hsummary
      obtain ⟨summaries, hrequests, hlength⟩ := requests_ofRows? hsummary
      cases h
      refine ⟨rfl, rfl, rfl, rfl, Or.inr ⟨hexecute, hcleared, by rw [hcalls]⟩,
        ⟨summaries, hrequests, hlength, fun _ => rfl⟩, ?_⟩
      intro f hf
      rw [show o.failure = none from hfresh.failure] at hf
      cases hf

theorem concludes_conclude {execute : Bool} {o final : Outcome} (hfresh : IsFresh o)
    (hverdict : o.verdict = review o.statement)
    (h : conclude ctx provider execute o = .ok final) : Concludes ctx execute o final := by
  have silent : ∃ summaries : History, o.requests = o.requests ++ summaries ∧
      summaries.length ≤ 1 ∧ (summaries ≠ [] → o.executed = true) :=
    ⟨[], (List.append_nil _).symm, Nat.zero_le 1, fun h => absurd rfl h⟩
  unfold conclude at h
  split at h
  · cases h
    exact ⟨rfl, rfl, rfl, rfl, Or.inl hfresh.calls, silent,
      fun f _ => ⟨hfresh.executed, hfresh.rows, hfresh.answer⟩⟩
  · rename_i haccepted
    split at h
    · rename_i hscope
      have hcleared : IsCleared o.statement o.tenant :=
        ⟨Verdict.ofText_eq_accepted_iff.mp (hverdict.symm.trans haccepted), hscope⟩
      dsimp only at h
      split at h
      · rename_i hexecute
        have hrun := concludes_run (o := { o with scopeOk := some true })
          ⟨hfresh.failure, hfresh.executed, hfresh.rows, hfresh.answer, hfresh.calls⟩
          hexecute hcleared h
        exact ⟨hrun.question, hrun.tenant, hrun.period, hrun.statement, hrun.session,
          hrun.summary, hrun.failed⟩
      · cases h
        refine ⟨rfl, rfl, rfl, rfl, Or.inl hfresh.calls, silent, ?_⟩
        intro f hf
        rw [show o.failure = none from hfresh.failure] at hf
        cases hf
    · cases h
      exact ⟨rfl, rfl, rfl, rfl, Or.inl hfresh.calls, silent,
        fun f _ => ⟨hfresh.executed, hfresh.rows, hfresh.answer⟩⟩

/-! ### Whole requests -/

theorem text_of_questionText? {v : Value} {question : String}
    (h : questionText? v = some question) : v = .text question := by
  unfold questionText? at h
  split at h
  · split at h
    · cases h
    · cases h
      rfl
  · cases h

theorem providerOf_ne_assistant {settings : Settings} {mode : Value} (fault : Assistant.Fault) :
    providerOf settings mode ≠ .error (.assistant fault) := by
  unfold providerOf
  split
  · split <;> nofun
  · nofun

theorem templateFor_ne_assistant {p? : Option Period} {now : Moment} (fault : Assistant.Fault) :
    templateFor question tenant p? now ≠ .error (.assistant fault) := by
  unfold templateFor
  cases Template.forValues (.text question) (.int tenant.id) p? now <;> nofun

/-- A language model is asked for a draft only when there is no template. -/
theorem noTemplate_of_choose {withoutTemplate : Bool} {fault : Assistant.Fault}
    (h : choose ctx question tenant period provider withoutTemplate = .error (.assistant fault)) :
    withoutTemplate = true ∨ Intent.ofText? question.toList = none := by
  unfold choose at h
  cases withoutTemplate with
  | true => exact Or.inl rfl
  | false =>
    cases htemplate : templateFor question tenant period ctx.now with
    | error e =>
      rw [htemplate] at h
      cases h
      exact absurd htemplate (templateFor_ne_assistant fault)
    | ok s? =>
      cases s? with
      | none => exact Or.inr (templateFor_none htemplate)
      | some s =>
        rw [htemplate] at h
        cases h

theorem conclude_ne_assistant {execute : Bool} {o : Outcome} (fault : Assistant.Fault) :
    conclude ctx provider execute o ≠ .error (.assistant fault) := by
  unfold conclude
  split
  · nofun
  · split
    · dsimp only
      split
      · unfold run
        split
        · nofun
        · split <;> nofun
      · nofun
    · nofun

/-- A request comes to an end before a statement is chosen, or goes on with one; the database plays
no part until then. -/
theorem ask_cases (ctx : Context) (r : Request) :
    (∃ e, (∀ db, ask { ctx with database := db } r = .error e) ∧
      ∀ fault, e = .assistant fault → ∃ question, r.question = .text question ∧
        (r.withoutTemplate = true ∨ Intent.ofText? question.toList = none)) ∨
      ∃ question provider tenant choice, r.question = .text question ∧
        resolveTenant? question.toList r.caller ctx.settings.defaultTenantId = some tenant ∧
        choose ctx question tenant (Question.period? question ctx.now) provider r.withoutTemplate =
          .ok choice ∧
        ∀ db, ask { ctx with database := db } r =
          conclude { ctx with database := db } provider r.execute
            (.start question tenant (Question.period? question ctx.now) choice
              (tenantAudit question r.caller ctx.settings.defaultTenantId)) := by
  have choose_eq (db : Database.Behaviour) (question : String) (tenant : Tenant)
      (provider : String) :
      choose { ctx with database := db } question tenant (Question.period? question ctx.now)
        provider r.withoutTemplate =
      choose ctx question tenant (Question.period? question ctx.now) provider
        r.withoutTemplate := rfl
  cases hquestion : questionText? r.question with
  | none => exact Or.inl ⟨.noQuestion, fun db => by simp only [ask, hquestion]; rfl, nofun⟩
  | some question =>
    cases hprovider : providerOf ctx.settings r.mode with
    | error e =>
      refine Or.inl ⟨e, fun db => by simp only [ask, hquestion, hprovider]; rfl, ?_⟩
      rintro fault rfl
      exact absurd hprovider (providerOf_ne_assistant fault)
    | ok provider =>
      cases htenant : resolveTenant? question.toList r.caller ctx.settings.defaultTenantId with
      | none =>
        exact Or.inl
          ⟨.noTenant, fun db => by simp only [ask, hquestion, hprovider, htenant]; rfl, nofun⟩
      | some tenant =>
        cases hchoice : choose ctx question tenant (Question.period? question ctx.now) provider
            r.withoutTemplate with
        | error e =>
          refine Or.inl ⟨e, fun db => ?_, ?_⟩
          · simp only [ask, hquestion, hprovider, htenant, bind, Except.bind, choose_eq, hchoice]
          · rintro fault rfl
            exact ⟨question, text_of_questionText? hquestion, noTemplate_of_choose hchoice⟩
        | ok choice =>
          refine Or.inr ⟨question, provider, tenant, choice, ?_, htenant, hchoice, fun db => ?_⟩
          · exact text_of_questionText? hquestion
          · simp only [ask, hquestion, hprovider, htenant, bind, Except.bind, choose_eq, hchoice]

/-- What holds of every outcome: whom and what it is about, where its statement comes from, what the
database and the language model were asked, and that a failure shows nothing. -/
structure IsSafe (ctx : Context) (r : Request) (o : Outcome) : Prop where
  question : r.question = .text o.question
  tenant : resolveTenant? o.question.toList r.caller ctx.settings.defaultTenantId = some o.tenant
  requests : ∃ drafts summaries, o.requests = drafts ++ summaries ∧
    Origin ctx o.question o.tenant (Question.period? o.question ctx.now) r.withoutTemplate
      o.statement drafts ∧
    summaries.length ≤ 1 ∧ (summaries ≠ [] → o.executed = true)
  session : RanOnlyIf ctx r.execute o
  connectsOnce : o.calls.count .connect ≤ 1
  sends : ∀ sql, .query sql ∈ o.calls →
    sql = o.statement.text ∧ r.execute = true ∧ IsCleared o.statement o.tenant
  failed : ∀ f, o.failure = some f → o.executed = false ∧ o.rows = [] ∧ o.answer = ""
  executed : o.executed = true → o.failure = none

theorem isSafe_of_ask {ctx : Context} {r : Request} {o : Outcome} (h : ask ctx r = .ok o) :
    IsSafe ctx r o := by
  rcases ask_cases ctx r with ⟨e, he, _⟩ | ⟨question, provider, tenant, choice, hquestion,
    htenant, hchoice, hconclude⟩
  · rw [show ask ctx r = .error e from he ctx.database] at h
    cases h
  · obtain ⟨hverdict, horigin⟩ := choose_ok hchoice
    rw [show ask ctx r = _ from hconclude ctx.database] at h
    have hfinal : Concludes ctx r.execute _ o :=
      concludes_conclude ⟨rfl, rfl, rfl, rfl, rfl⟩ hverdict h
    obtain ⟨summaries, hrequests, hlength, hexecuted⟩ := hfinal.summary
    have hq : o.question = question := hfinal.question
    have ht : o.tenant = tenant := hfinal.tenant
    have hs : o.statement = choice.statement := hfinal.statement
    refine ⟨by rw [hq, hquestion], by rw [hq, ht, htenant], ⟨choice.requests, summaries, hrequests,
      by rw [hq, ht, hs]; exact horigin, hlength, hexecuted⟩, hfinal.session, ?_, ?_,
      hfinal.failed, ?_⟩
    · rcases hfinal.session with hnone | ⟨_, _, hcalls⟩
      · rw [hnone]
        exact Nat.zero_le 1
      · rw [hcalls]
        exact Nat.le_of_eq (Database.connect_count_execute ..)
    · intro sql hsql
      rcases hfinal.session with hnone | ⟨hexecute, hcleared, hcalls⟩
      · rw [hnone] at hsql
        cases hsql
      · rw [hcalls] at hsql
        exact ⟨Database.query_mem_execute hsql, hexecute, hcleared⟩
    · intro hran
      cases hf : o.failure with
      | none => rfl
      | some f =>
        rw [(hfinal.failed f hf).1] at hran
        cases hran

theorem run_congr {o : Outcome} {db db' : Database.Behaviour}
    (h : Database.execute db o.statement.text (.int ctx.settings.dbQueryTimeoutMs) [] =
      Database.execute db' o.statement.text (.int ctx.settings.dbQueryTimeoutMs) []) :
    run { ctx with database := db } provider o = run { ctx with database := db' } provider o := by
  unfold run
  rw [show Database.execute ({ ctx with database := db } : Context).database o.statement.text
    (.int ({ ctx with database := db } : Context).settings.dbQueryTimeoutMs) [] = _ from h]

/-- Carrying a statement on looks at the database through one session at most, and only if the
statement is to be run and is cleared. -/
theorem conclude_database (ctx : Context) {execute : Bool} {o : Outcome}
    (hverdict : o.verdict = review o.statement) :
    (∀ db db', conclude { ctx with database := db } provider execute o =
      conclude { ctx with database := db' } provider execute o) ∨
    execute = true ∧ IsCleared o.statement o.tenant ∧ ∀ db db',
      Database.execute db o.statement.text (.int ctx.settings.dbQueryTimeoutMs) [] =
        Database.execute db' o.statement.text (.int ctx.settings.dbQueryTimeoutMs) [] →
      conclude { ctx with database := db } provider execute o =
        conclude { ctx with database := db' } provider execute o := by
  cases haccepted : o.verdict with
  | rejected why => exact Or.inl fun db db' => by simp only [conclude, haccepted]
  | accepted =>
    cases hscope : inScope o.statement o.tenant with
    | false => exact Or.inl fun db db' => by simp [conclude, haccepted, hscope]
    | true =>
      cases execute with
      | false => exact Or.inl fun db db' => by simp [conclude, haccepted, hscope]
      | true =>
        have haccepts := Verdict.ofText_eq_accepted_iff.mp (hverdict.symm.trans haccepted)
        refine Or.inr ⟨rfl, ⟨haccepts, hscope⟩, ?_⟩
        intro db db' h
        simp only [conclude, haccepted, hscope, ↓reduceIte]
        exact run_congr h

/-- Answering a question.  Every outcome is safe.  Whether there is an outcome or not, the database
is looked at through one session at most, and only for a statement that is to be run and is cleared
for the tenant of the request; and a language model that gives no draft has been asked for one only
because there is no template. -/
theorem ask_safe (ctx : Context) (r : Request) :
    (∀ o, ask ctx r = .ok o → IsSafe ctx r o) ∧
      ((∀ db, ask { ctx with database := db } r = ask ctx r) ∨
        r.execute = true ∧ ∃ question tenant s, r.question = .text question ∧
          resolveTenant? question.toList r.caller ctx.settings.defaultTenantId = some tenant ∧
          IsCleared s tenant ∧ ∀ db db',
            Database.execute db s.text (.int ctx.settings.dbQueryTimeoutMs) [] =
              Database.execute db' s.text (.int ctx.settings.dbQueryTimeoutMs) [] →
            ask { ctx with database := db } r = ask { ctx with database := db' } r) ∧
      ∀ e, ask ctx r = .error (.assistant e) → ∃ question, r.question = .text question ∧
        (r.withoutTemplate = true ∨ Intent.ofText? question.toList = none) := by
  refine ⟨fun o => isSafe_of_ask, ?_, ?_⟩
  · rcases ask_cases ctx r with ⟨e, he, _⟩ | ⟨question, provider, tenant, choice, hquestion,
      htenant, hchoice, hconclude⟩
    · exact Or.inl fun db => (he db).trans (he ctx.database).symm
    · obtain ⟨hverdict, _⟩ := choose_ok hchoice
      rcases conclude_database ctx (o := .start question tenant _ choice _) hverdict with
        hsame | ⟨hexecute, hcleared, hcongr⟩
      · exact Or.inl fun db =>
          (hconclude db).trans ((hsame db ctx.database).trans (hconclude ctx.database).symm)
      · refine Or.inr ⟨hexecute, question, tenant, choice.statement, hquestion, htenant, hcleared,
          fun db db' h => ?_⟩
        exact (hconclude db).trans ((hcongr db db' h).trans (hconclude db').symm)
  · intro fault hfault
    rcases ask_cases ctx r with ⟨e, he, hdraft⟩ | ⟨question, provider, tenant, choice, _, _, _,
      hconclude⟩
    · exact hdraft fault (Except.error.inj ((he ctx.database).symm.trans hfault))
    · exact absurd ((hconclude ctx.database).symm.trans hfault) (conclude_ne_assistant fault)

/-- A moment. -/
def someMoment : Moment := ⟨⟨2025, 9, 10, by decide⟩, 0, none⟩

/-- A request for restaurant 7 that no template answers. -/
def checksRequest : Request := ⟨.text "x", .int 7, .null, true, false⟩

/-- What a request meets when the language model answers as given and the database has one row. -/
def withReply (reply : Except Assistant.Fault String) : Context where
  settings := Settings.default
  now := someMoment
  backend := scripted [reply]
  database := Database.answering ⟨["id"], [[.int 3]]⟩ none

/-- A draft that passes both checks is run, and a language model without an answer leaves nothing to
run. -/
theorem ask_safe_runs :
    (∃ o, ask (withReply (.ok "SELECT id FROM check WHERE restaurant_id = 7 LIMIT 1"))
        checksRequest = .ok o ∧ o.executed = true ∧
      IsSafe (withReply (.ok "SELECT id FROM check WHERE restaurant_id = 7 LIMIT 1"))
        checksRequest o) ∧
      ask (withReply (.error (.failed "down"))) checksRequest =
        .error (.assistant (.failed "down")) ∧
      ∃ question, checksRequest.question = .text question ∧
        (checksRequest.withoutTemplate = true ∨ Intent.ofText? question.toList = none) := by
  have hran : (match ask (withReply (.ok "SELECT id FROM check WHERE restaurant_id = 7 LIMIT 1"))
      checksRequest with
    | .ok o => o.executed
    | .error _ => false) = true := by decide +kernel
  have hfault : (match ask (withReply (.error (.failed "down"))) checksRequest with
    | .ok _ => none
    | .error e => some e) = some (.assistant (.failed "down")) := by decide
  have hdown : ask (withReply (.error (.failed "down"))) checksRequest =
      .error (.assistant (.failed "down")) := by
    split at hfault
    · cases hfault
    · rename_i e he
      rw [he, Option.some.inj hfault]
  refine ⟨?_, hdown, (ask_safe _ _).2.2 _ hdown⟩
  split at hran
  · rename_i o ho
    exact ⟨o, ho, hran, (ask_safe _ _).1 o ho⟩
  · cases hran

end Ask
end QueryGate
