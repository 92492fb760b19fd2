import QueryGate.Database.Session

/-!
# The calls of a session

Whatever fails, the calls that a session makes are the beginning of one fixed list, and then the
beginning of the two calls that give the connection back.  So a session sends one statement at most,
and never another one than it was given.
-/

namespace QueryGate
namespace Database

/-- Calls that are made behind a trace in the order of a plan: every one but the last has
succeeded. -/
inductive Follows (db : Behaviour) : Trace → List Call → Trace → Prop
  | stop {trace : Trace} {plan : List Call} : Follows db trace plan []
  | failed {trace : Trace} {call : Call} {plan : List Call} {message : String}
      (h : db.fails trace call = some message) : Follows db trace (call :: plan) [call]
  | next {trace : Trace} {call : Call} {plan : List Call} {done : Trace}
      (h : db.fails trace call = none) (hnext : Follows db (trace ++ [call]) plan done) :
      Follows db trace (call :: plan) (call :: done)

theorem Follows.isPrefix {db : Behaviour} {trace : Trace} {plan : List Call} {done : Trace}
    (h : Follows db trace plan done) : done <+: plan := by
  induction h with
  | stop => exact List.nil_prefix
  | failed _ => exact List.cons_prefix_cons.mpr ⟨rfl, List.nil_prefix⟩
  | next _ _ ih => exact List.cons_prefix_cons.mpr ⟨rfl, ih⟩

/-- Whether calls that are made behind a trace all succeed. -/
def Succeed (db : Behaviour) (trace calls : Trace) : Prop :=
  ∀ earlier call later, calls = earlier ++ call :: later → db.fails (trace ++ earlier) call = none

theorem succeed_nil (db : Behaviour) (trace : Trace) : Succeed db trace [] :=
  fun earlier _ _ h => absurd h (by cases earlier <;> simp)

theorem Succeed.cons {db : Behaviour} {trace calls : Trace} {call : Call}
    (h : db.fails trace call = none) (hcalls : Succeed db (trace ++ [call]) calls) :
    Succeed db trace (call :: calls) := by
  intro earlier c later hsplit
  cases earlier with
  | nil =>
    obtain ⟨rfl, _⟩ := List.cons.inj hsplit
    rwa [List.append_nil]
  | cons first earlier =>
    obtain ⟨rfl, hrest⟩ := List.cons.inj hsplit
    have := hcalls earlier c later hrest
    rwa [List.append_assoc, List.singleton_append] at this

/-- In front of a call that was made, all calls of the plan were made and succeeded. -/
theorem Follows.of_append {db : Behaviour} {trace : Trace} {plan : List Call} {earlier : Trace}
    {call : Call} {later : Trace} (h : Follows db trace plan (earlier ++ call :: later)) :
    earlier ++ [call] <+: plan ∧ Succeed db trace earlier := by
  induction earlier generalizing trace plan with
  | nil =>
    obtain ⟨rest, hrest⟩ := h.isPrefix
    exact ⟨⟨later ++ rest, by simpa using hrest⟩, succeed_nil db trace⟩
  | cons first earlier ih =>
    cases hdone : earlier ++ call :: later with
    | nil => simp at hdone
    | cons c rest =>
      rw [List.cons_append, hdone] at h
      cases h with
      | next hfirst hnext =>
        obtain ⟨hbegins, hsucceed⟩ := ih (hdone ▸ hnext)
        exact ⟨List.cons_prefix_cons.mpr ⟨rfl, hbegins⟩, hsucceed.cons hfirst⟩

section AndThen

variable {α : Type} {db : Behaviour} {trace : Trace} {call : Call}
  {next : Trace → Except Fault α × Trace}

theorem andThen_of_some {message : String} (h : db.fails trace call = some message) :
    andThen db trace call next = (.error (.failed message), trace ++ [call]) := by
  rw [andThen, perform, h]

theorem andThen_of_none (h : db.fails trace call = none) :
    andThen db trace call next = next (trace ++ [call]) := by
  rw [andThen, perform, h]

/-- A call that is made is written down, and what follows it goes on from there. -/
theorem follows_andThen {plan : List Call}
    (hnext : ∃ done, Follows db (trace ++ [call]) plan done ∧
      (next (trace ++ [call])).2 = trace ++ [call] ++ done) :
    ∃ done, Follows db trace (call :: plan) done ∧
      (andThen db trace call next).2 = trace ++ done := by
  cases h : db.fails trace call with
  | some message => exact ⟨[call], .failed h, by rw [andThen_of_some h]⟩
  | none =>
    obtain ⟨done, hdone, htrace⟩ := hnext
    refine ⟨call :: done, .next h hdone, ?_⟩
    rw [andThen_of_none h, htrace, List.append_assoc, List.singleton_append]

end AndThen

/-- The calls that a session makes for a statement when nothing fails. -/
def statementCalls (sql : String) (limit : Value) : List Call :=
  .readOnly ::
    match Policy.wholeNumber limit with
    | .ok milliseconds => [.timeLimit milliseconds, .verbatim, .query sql, .fetch]
    | .error _ => []

theorem follows_statements (db : Behaviour) (sql : String) (limit : Value) (trace : Trace) :
    ∃ done, Follows db trace (statementCalls sql limit) done ∧
      (statements db sql limit trace).2 = trace ++ done := by
  refine follows_andThen ?_
  cases Policy.wholeNumber limit with
  | error e => exact ⟨[], .stop, (List.append_nil _).symm⟩
  | ok milliseconds =>
    refine follows_andThen (follows_andThen (follows_andThen (follows_andThen ?_)))
    exact ⟨[], .stop, (List.append_nil _).symm⟩

/-- A rollback is attempted at any rate, and the connection is closed just behind one that
succeeds. -/
theorem giveBack_trace {α : Type} (db : Behaviour) (result : Except Fault α) (trace : Trace) :
    ∃ closing, (giveBack db result trace).2 = trace ++ Call.rollback :: closing ∧
      closing <+: [.close] ∧ (db.fails trace .rollback = none ↔ closing = [.close]) := by
  unfold giveBack
  cases hrollback : db.fails trace .rollback with
  | some message =>
    rw [andThen_of_some hrollback]
    exact ⟨[], rfl, List.nil_prefix, nofun, nofun⟩
  | none =>
    rw [andThen_of_none hrollback]
    refine ⟨[.close], ?_, List.prefix_rfl, fun _ => rfl, fun _ => rfl⟩
    cases hclose : db.fails (trace ++ [Call.rollback]) .close with
    | some message => rw [andThen_of_some hclose, List.append_assoc, List.singleton_append]
    | none => rw [andThen_of_none hclose, List.append_assoc, List.singleton_append]

/-- The calls of a session: it only tries to connect, or it runs the statement on the connection and
gives it back. -/
theorem execute_trace (db : Behaviour) (sql : String) (limit : Value) (trace : Trace) :
    (∃ message, db.fails trace .connect = some message ∧
        (execute db sql limit trace).2 = trace ++ [Call.connect]) ∨
      db.fails trace .connect = none ∧
        ∃ done closing, Follows db (trace ++ [Call.connect]) (statementCalls sql limit) done ∧
          closing <+: [.close] ∧
          (db.fails (trace ++ Call.connect :: done) .rollback = none ↔ closing = [.close]) ∧
          (execute db sql limit trace).2 =
            trace ++ Call.connect :: (done ++ Call.rollback :: closing) := by
  unfold execute
  cases hconnect : db.fails trace .connect with
  | some message => exact Or.inl ⟨message, rfl, by rw [andThen_of_some hconnect]⟩
  | none =>
    refine Or.inr ⟨rfl, ?_⟩
    rw [andThen_of_none hconnect]
    obtain ⟨done, hdone, hstatements⟩ := follows_statements db sql limit (trace ++ [Call.connect])
    rcases hran : statements db sql limit (trace ++ [Call.connect]) with ⟨result, after⟩
    rw [hran] at hstatements
    obtain rfl : after = trace ++ Call.connect :: done := by
      rw [show after = _ from hstatements, List.append_assoc, List.singleton_append]
    obtain ⟨closing, hback, hclosing, hclosed⟩ :=
      giveBack_trace db result (trace ++ Call.connect :: done)
    refine ⟨done, closing, hdone, hclosing, hclosed, ?_⟩
    simp only [hback, List.append_assoc, List.cons_append]

theorem query_mem_statementCalls {sql sent : String} {limit : Value}
    (h : .query sent ∈ statementCalls sql limit) : sent = sql := by
  unfold statementCalls at h
  split at h
  · simpa using h
  · simp at h

/-- The only statement that is sent is the given one. -/
theorem query_mem_execute {db : Behaviour} {sql sent : String} {limit : Value}
    (h : .query sent ∈ (execute db sql limit []).2) : sent = sql := by
  rcases execute_trace db sql limit [] with
    ⟨message, _, htrace⟩ | ⟨_, done, closing, hdone, hclosing, _, htrace⟩
  · simp [htrace] at h
  · simp only [htrace, List.nil_append, List.mem_cons, List.mem_append, reduceCtorEq,
      false_or] at h
    rcases h with h | h
    · exact query_mem_statementCalls (hdone.isPrefix.subset h)
    · simpa using hclosing.subset h

theorem ne_of_mem_statementCalls {call : Call} {sql : String} {limit : Value}
    (h : call ∈ statementCalls sql limit) : call ≠ .connect ∧ call ≠ .close := by
  unfold statementCalls at h
  split at h
  · simp only [List.mem_cons, List.not_mem_nil, or_false] at h
    rcases h with rfl | rfl | rfl | rfl | rfl <;> exact ⟨nofun, nofun⟩
  · rw [List.mem_singleton.mp h]
    exact ⟨nofun, nofun⟩

theorem connect_count_execute (db : Behaviour) (sql : String) (limit : Value) :
    (execute db sql limit []).2.count .connect = 1 := by
  rcases execute_trace db sql limit [] with
    ⟨message, _, htrace⟩ | ⟨_, done, closing, hdone, hclosing, _, htrace⟩
  · rw [htrace]
    rfl
  · have hd : Call.connect ∉ done := fun hmem =>
      (ne_of_mem_statementCalls (hdone.isPrefix.subset hmem)).1 rfl
    have hc : Call.connect ∉ closing := fun hmem => by simpa using hclosing.subset hmem
    simp [htrace, List.count_eq_zero.mpr hd, List.count_eq_zero.mpr hc]

end Database
end QueryGate
