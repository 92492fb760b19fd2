import Mathlib.Data.List.Basic
import QueryGate.Database.Pool
import QueryGate.Proofs.Database.Session

/-!
# Connections are given back

Statements are run one after another, each on a connection that it gets from the pool.  Any of the
calls to the database may fail, at any moment of the run.  Nothing is left open unless the rollback
itself fails, and no statement is sent before the transaction has been made read-only, but the one
with which the pool tells a new connection the time zone.
-/

namespace QueryGate
namespace Database

/-! ### Runs -/

/-- A statement to be run, the database that it meets, whether the pool makes a new connection for
it, and the message with which the server then refuses the time zone, if it does. -/
structure Visit where
  database : Behaviour
  sql : String
  limit : Value
  isNew : Bool
  refusal : Option String

/-- The pool, and the calls made to the database so far. -/
structure Work where
  pool : Pool
  trace : Trace

/-- Runs the statement of a visit on a connection of the pool. -/
def Visit.run (s : Settings) (v : Visit) (w : Work) : Except Fault (List Row) × Work :=
  let pool := w.pool.get s
  let (result, trace) := execute v.database v.sql v.limit w.trace
  (result, ⟨if v.isNew then pool.connected v.refusal else pool, trace⟩)

/-- What is there after several visits. -/
def workAfter (s : Settings) (visits : List Visit) : Work :=
  visits.foldl (fun w v => (v.run s w).2) ⟨.none, []⟩

/-- The calls that a visit makes to the database. -/
def Visit.made (s : Settings) (v : Visit) (w : Work) : Trace :=
  (v.run s w).2.trace.drop w.trace.length

/-- The statements that a connection gets in a visit, from the pool and from the session. -/
def Visit.sent (s : Settings) (v : Visit) (w : Work) : List String :=
  ((v.run s w).2.pool.calls.drop w.pool.calls.length).filterMap PoolCall.statement? ++
    (v.made s w).filterMap Call.statement?

/-! ### The pool -/

namespace Pool

/-- A pool, once made, knows the time zone. -/
def KnowsZone (s : Settings) (p : Pool) : Prop := p.isOpen = true → p.timeZone = some s.dbTimeZone

variable {s : Settings} {p : Pool}

theorem get_timeZone (h : p.KnowsZone s) : (p.get s).timeZone = some s.dbTimeZone := by
  unfold get
  split
  · rename_i hopen
    exact h hopen
  · rfl

theorem get_calls (s : Settings) (p : Pool) :
    ∃ made, (p.get s).calls = p.calls ++ made ∧ made.filterMap PoolCall.statement? = [] := by
  unfold get
  split
  · exact ⟨[], (List.append_nil _).symm, rfl⟩
  · exact ⟨_, rfl, rfl⟩

theorem connected_timeZone (failure : Option String) (p : Pool) :
    (p.connected failure).timeZone = p.timeZone := by
  unfold connected
  split <;> rfl

theorem connected_calls (failure : Option String) {zone : String} (h : p.timeZone = some zone) :
    (p.connected failure).calls = p.calls ++ [.setTimeZone zone, .closeCursor] := by
  rw [connected, h]

end Pool

theorem run_pool (s : Settings) (v : Visit) (w : Work) :
    (v.run s w).2.pool =
      if v.isNew then (w.pool.get s).connected v.refusal else w.pool.get s := rfl

theorem run_trace (s : Settings) (v : Visit) (w : Work) :
    (v.run s w).2.trace = (execute v.database v.sql v.limit w.trace).2 := rfl

theorem knowsZone_run {s : Settings} (v : Visit) {w : Work} (h : w.pool.KnowsZone s) :
    (v.run s w).2.pool.KnowsZone s := by
  intro _
  rw [run_pool]
  split
  · rw [Pool.connected_timeZone]
    exact Pool.get_timeZone h
  · exact Pool.get_timeZone h

theorem knowsZone_workAfter (s : Settings) (visits : List Visit) :
    (workAfter s visits).pool.KnowsZone s :=
  List.foldlRecOn (motive := fun w : Work => w.pool.KnowsZone s) visits _
    (fun h => absurd h (by decide)) fun _ h v _ => knowsZone_run v h

/-- What the pool sends in a visit: the time zone, if it makes a new connection. -/
theorem pool_statements {s : Settings} (v : Visit) {w : Work} (h : w.pool.KnowsZone s) :
    ((v.run s w).2.pool.calls.drop w.pool.calls.length).filterMap PoolCall.statement? =
      if v.isNew then [timeZoneStatement] else [] := by
  obtain ⟨made, hget, hnone⟩ := Pool.get_calls s w.pool
  rw [run_pool]
  cases v.isNew with
  | true =>
    simp only [↓reduceIte, Pool.connected_calls _ (Pool.get_timeZone h), hget, List.append_assoc,
      List.drop_left, List.filterMap_append, hnone]
    rfl
  | false =>
    simp only [Bool.false_eq_true, ↓reduceIte, hget, List.drop_left, hnone]

/-! ### One visit -/

/-- The calls of a visit: it only tries to connect, or it runs the statement on the connection and
gives it back. -/
theorem made_cases (s : Settings) (v : Visit) (w : Work) :
    (∃ message, v.database.fails w.trace .connect = some message ∧ v.made s w = [.connect]) ∨
      v.database.fails w.trace .connect = none ∧
        ∃ done closing, Follows v.database (w.trace ++ [Call.connect])
            (statementCalls v.sql v.limit) done ∧
          closing <+: [.close] ∧
          (v.database.fails (w.trace ++ Call.connect :: done) .rollback = none ↔
            closing = [.close]) ∧
          v.made s w = Call.connect :: (done ++ Call.rollback :: closing) := by
  rw [Visit.made, run_trace]
  rcases execute_trace v.database v.sql v.limit w.trace with
    ⟨message, hconnect, htrace⟩ | ⟨hconnect, done, closing, hdone, hclosing, hclosed, htrace⟩
  · exact Or.inl ⟨message, hconnect, by rw [htrace, List.drop_left]⟩
  · exact Or.inr ⟨hconnect, done, closing, hdone, hclosing, hclosed, by rw [htrace, List.drop_left]⟩

/-- What a session sends begins with the statement that makes the transaction read-only. -/
theorem head_of_follows {db : Behaviour} {trace done : Trace} {sql : String} {limit : Value}
    (h : Follows db trace (statementCalls sql limit) done) :
    ∀ text ∈ (done.filterMap Call.statement?).head?, text = readOnlyStatement := by
  intro text htext
  have hbegins := h.isPrefix
  unfold statementCalls at hbegins
  cases done with
  | nil => cases htext
  | cons call rest =>
    obtain ⟨rfl, _⟩ := List.cons_prefix_cons.mp hbegins
    exact (Option.some.inj htext).symm

/-- In front of the statement of a session the transaction was made read-only and given its time
limit. -/
theorem query_of_follows {db : Behaviour} {trace earlier later : Trace} {sql text : String}
    {limit : Value}
    (h : Follows db trace (statementCalls sql limit) (earlier ++ Call.query text :: later)) :
    text = sql ∧ (∀ other, .query other ∉ later) ∧ Succeed db trace earlier ∧
      ∃ milliseconds, earlier = [.readOnly, .timeLimit milliseconds, .verbatim] := by
  obtain ⟨rest, hplan⟩ := h.isPrefix
  rw [List.append_assoc, List.cons_append] at hplan
  unfold statementCalls at hplan
  cases hlimit : Policy.wholeNumber limit with
  | error e =>
    rw [hlimit] at hplan
    have : Call.query text ∈ [Call.readOnly] := hplan ▸ by simp
    simp at this
  | ok milliseconds =>
    rw [hlimit] at hplan
    -- the statement is the fourth call of the plan and stands nowhere else in it
    have hsplit :
        [Call.readOnly, .timeLimit milliseconds, .verbatim] ++ Call.query sql :: [.fetch] =
          earlier ++ Call.query text :: (later ++ rest) := hplan.symm
    obtain ⟨hearlier, hquery, hlater⟩ :=
      (List.append_cons_inj_of_notMem (by simp) (by simp)).mp hsplit
    refine ⟨(Call.query.inj hquery).symm, fun other hother => ?_, h.of_append.2, milliseconds,
      hearlier.symm⟩
    have : Call.query other ∈ [Call.fetch] := hlater ▸ List.mem_append_left rest hother
    simp at this

section OneVisit

variable (s : Settings) (v : Visit) (w : Work)

theorem connect_count_made : (v.made s w).count .connect = 1 := by
  rcases made_cases s v w with
    ⟨message, _, hmade⟩ | ⟨_, done, closing, hdone, hclosing, _, hmade⟩
  · rw [hmade]
    rfl
  · have hd : Call.connect ∉ done := fun hmem =>
      (ne_of_mem_statementCalls (hdone.isPrefix.subset hmem)).1 rfl
    have hc : Call.connect ∉ closing := fun hmem => by simpa using hclosing.subset hmem
    simp [hmade, List.count_eq_zero.mpr hd, List.count_eq_zero.mpr hc]

variable {s v w}

theorem made_of_unconnected (h : v.database.fails w.trace .connect ≠ none) :
    v.made s w = [.connect] := by
  rcases made_cases s v w with ⟨message, _, hmade⟩ | ⟨hconnect, _⟩
  · exact hmade
  · exact absurd hconnect h

/-- An open connection is rolled back behind its statements, and closed just when that succeeds. -/
theorem made_of_connected (h : v.database.fails w.trace .connect = none) :
    ∃ done closing, v.made s w = Call.connect :: (done ++ Call.rollback :: closing) ∧
      done <+: statementCalls v.sql v.limit ∧ closing <+: [.close] ∧
      (v.database.fails (w.trace ++ Call.connect :: done) .rollback = none ↔
        (v.made s w).count .close = 1) := by
  rcases made_cases s v w with
    ⟨message, hconnect, _⟩ | ⟨_, done, closing, hdone, hclosing, hclosed, hmade⟩
  · rw [hconnect] at h
    cases h
  · refine ⟨done, closing, hmade, hdone.isPrefix, hclosing, ?_⟩
    have hd : Call.close ∉ done := fun hmem =>
      (ne_of_mem_statementCalls (hdone.isPrefix.subset hmem)).2 rfl
    have hcount : (v.made s w).count .close = closing.count .close := by
      simp [hmade, List.count_eq_zero.mpr hd]
    rw [hclosed, hcount]
    rcases List.prefix_cons_iff.mp hclosing with rfl | ⟨more, rfl, hmore⟩
    · exact ⟨nofun, nofun⟩
    · rw [List.prefix_nil.mp hmore]
      exact ⟨fun _ => rfl, fun _ => rfl⟩

/-- What is sent on a connection begins with the statement that makes the transaction read-only,
behind the time zone on a new connection. -/
theorem sent_eq (h : w.pool.KnowsZone s) :
    ∃ statements, (∀ text ∈ statements.head?, text = readOnlyStatement) ∧
      v.sent s w = (if v.isNew then [timeZoneStatement] else []) ++ statements := by
  refine ⟨(v.made s w).filterMap Call.statement?, ?_, by rw [Visit.sent, pool_statements v h]⟩
  rcases made_cases s v w with
    ⟨message, _, hmade⟩ | ⟨_, done, closing, hdone, hclosing, _, hmade⟩
  · rw [hmade]
    exact fun _ h => nomatch h
  · have hback : (Call.rollback :: closing).filterMap Call.statement? = [] := by
      refine List.filterMap_eq_nil_iff.mpr fun call hcall => ?_
      rcases List.mem_cons.mp hcall with rfl | hcall
      · rfl
      · rw [List.mem_singleton.mp (hclosing.subset hcall)]
        rfl
    have hsent : (v.made s w).filterMap Call.statement? = done.filterMap Call.statement? := by
      rw [hmade, List.filterMap_cons_none rfl, List.filterMap_append, hback, List.append_nil]
    rw [hsent]
    exact head_of_follows hdone

/-- A statement that is sent is the given one.  Everything in front of it succeeded, and a rollback
is attempted behind it. -/
theorem query_of_made {earlier later : Trace} {text : String}
    (h : v.made s w = earlier ++ Call.query text :: later) :
    text = v.sql ∧ .rollback ∈ later ∧ (∀ other, .query other ∉ later) ∧
      Succeed v.database w.trace earlier ∧
      ∃ milliseconds, earlier = [.connect, .readOnly, .timeLimit milliseconds, .verbatim] := by
  rcases made_cases s v w with
    ⟨message, _, hmade⟩ | ⟨hconnect, done, closing, hdone, hclosing, _, hmade⟩
  · have : Call.query text ∈ [Call.connect] := by
      rw [← hmade, h]
      simp
    simp at this
  · rw [hmade] at h
    cases earlier with
    | nil => cases h
    | cons first earlier =>
      obtain ⟨rfl, hbehind⟩ := List.cons.inj h
      rcases List.append_eq_append_iff.mp hbehind with ⟨more, _, hback⟩ | ⟨more, rfl, hrest⟩
      · have : Call.query text ∈ Call.rollback :: closing := hback ▸ by simp
        rcases List.mem_cons.mp this with hmem | hmem
        · cases hmem
        · cases List.mem_singleton.mp (hclosing.subset hmem)
      · cases more with
        | nil => cases hrest
        | cons query more =>
          obtain ⟨rfl, rfl⟩ := List.cons.inj hrest
          obtain ⟨htext, hmore, hsucceed, milliseconds, hearlier⟩ := query_of_follows hdone
          refine ⟨htext, by simp, fun other hother => ?_, hsucceed.cons hconnect,
            milliseconds, by rw [hearlier]⟩
          rcases List.mem_append.mp hother with hother | hother
          · exact hmore other hother
          · rcases List.mem_cons.mp hother with hother | hother
            · cases hother
            · cases List.mem_singleton.mp (hclosing.subset hother)

end OneVisit

/-! ### Any visit of a run -/

/-- Any visit, behind any others.  At most one connection is opened in it.  One that was opened is
rolled back behind everything else, and closed once just when that succeeds, before the visit ends.
The first statement on it makes the transaction read-only; only on a new connection the pool has
told the time zone before.  The given statement is sent as it is and once at most, when the
transaction is read-only and has its time limit, and a rollback is attempted behind it. -/
theorem connections_given_back (s : Settings) (before : List Visit) (v : Visit) :
    let w := workAfter s before
    let made := v.made s w
    made.count .connect = 1 ∧
      (v.database.fails w.trace .connect ≠ none → made = [.connect]) ∧
      (v.database.fails w.trace .connect = none → ∃ done closing,
        made = Call.connect :: (done ++ Call.rollback :: closing) ∧
          done <+: statementCalls v.sql v.limit ∧ closing <+: [.close] ∧
          (v.database.fails (w.trace ++ Call.connect :: done) .rollback = none ↔
            made.count .close = 1)) ∧
      (∃ statements, (∀ text ∈ statements.head?, text = readOnlyStatement) ∧
        v.sent s w = (if v.isNew then [timeZoneStatement] else []) ++ statements) ∧
      ∀ earlier text later, made = earlier ++ Call.query text :: later →
        text = v.sql ∧ .rollback ∈ later ∧ (∀ other, .query other ∉ later) ∧
          Succeed v.database w.trace earlier ∧
          ∃ milliseconds, earlier = [.connect, .readOnly, .timeLimit milliseconds, .verbatim] :=
  ⟨connect_count_made s v _, made_of_unconnected, made_of_connected,
    sent_eq (knowsZone_workAfter s before), fun _ _ _ => query_of_made⟩

/-- The first statement on a new connection is the time zone. -/
example :
    Visit.sent .default
        ⟨answering ⟨["id"], []⟩ none, "SELECT id FROM daily_check LIMIT 1", .int 10000, true, none⟩
        (workAfter .default []) =
      ["SET time_zone = %s", "SET TRANSACTION READ ONLY", "SET SESSION MAX_EXECUTION_TIME = 10000",
        "SELECT id FROM daily_check LIMIT 1"] := by
  decide +kernel

/-- A database that is lost before the rollback. -/
def lostAtRollback : Behaviour where
  fails _ call := if call = Call.rollback then some "server has gone away" else none
  table := ⟨["id"], [[.int 1]]⟩

/-- A visit to such a database, on a connection that the pool has already. -/
def lostVisit : Visit :=
  ⟨lostAtRollback, "SELECT id FROM daily_check LIMIT 1", .int 10000, false, none⟩

/-- A connection on which the rollback fails was opened, and the visit ends without closing it. -/
theorem lostVisit_not_closed :
    let w := workAfter .default []
    lostVisit.database.fails w.trace .connect = none ∧
      (lostVisit.run .default w).1 = .error (.failed "server has gone away") ∧
      lostVisit.made .default w =
        [.connect, .readOnly, .timeLimit 10000, .verbatim,
          .query "SELECT id FROM daily_check LIMIT 1", .fetch, .rollback] ∧
      (lostVisit.made .default w).count .close = 0 := by
  exact ⟨by decide +kernel, rfl, by decide +kernel, by decide +kernel⟩

end Database
end QueryGate
