import QueryGate.Proofs.Indexed.Scope
import QueryGate.Proofs.Scope.Comparisons

/-!
# The tenant as it is written

A literal stands for the tenant just when it is a run of decimal digits with the tenant as its
value, however long it is and however many zeros it begins with.  A list of tenants is such literals
with a comma between any two of them, in parentheses.  By place the text of a literal is compared
with the text of the tenant instead.  Where the tenant has one, that is the same; a tenant with more
digits than can be written ends the reading at the first run of digits.
-/

namespace QueryGate
namespace Scope

open Sql

/-! ### Literals -/

/-- Whether a token is a number or a literal that writes the given number: ASCII digits, at least
one, of which it is the decimal value. -/
def Writes (n : Int) (t : Token) : Prop :=
  ∃ digits, (t = .number digits ∨ ∃ quote, t = .literal quote digits) ∧ digits ≠ [] ∧
    (∀ c ∈ digits, '0' ≤ c ∧ c ≤ '9') ∧ (Nat.ofDigitChars 10 digits 0 : Int) = n

variable {tenant : Int}

theorem digitsOf?_eq_some_iff {t : Token} {digits : List Char} :
    digitsOf? t = some digits ↔ t = .number digits ∨ ∃ quote, t = .literal quote digits := by
  cases t <;> simp [digitsOf?]

theorem isTenant_iff {t : Token} : isTenant tenant t = true ↔ Writes tenant t := by
  have hdigits : isTenant tenant t = true ↔ ∃ digits, digitsOf? t = some digits ∧
      Text.isDigits digits = true ∧ (Text.digitsValue digits : Int) = tenant := by
    rw [isTenant]
    cases digitsOf? t <;> simp
  rw [hdigits, Writes]
  simp only [digitsOf?_eq_some_iff, Text.isDigits_iff, Text.digitsValue_eq, and_assoc]

theorem writes_toDigits (n : Nat) : Writes n (.number (Nat.toDigits 10 n)) := by
  obtain ⟨hne, hall⟩ := Text.isDigits_iff.mp (Text.isDigits_toDigits n)
  exact ⟨_, Or.inl rfl, hne, hall, by rw [Nat.ofDigitChars_ten_toDigits]⟩

/-! ### Lists -/

/-- Whether tokens are a list of literals that all write the given number: at least one, a comma
between any two of them, and parentheses around them. -/
def ListsOnly (n : Int) (ts : List Token) : Prop :=
  ∃ first more, ts = parenthesized (listed first more) ∧ ∀ t ∈ first :: more, Writes n t

theorem ListsOnly.ne_nil {n : Int} {ts : List Token} (h : ListsOnly n ts) : ts ≠ [] := by
  obtain ⟨first, more, rfl, _⟩ := h
  exact List.cons_ne_nil _ _

theorem tenantList?_listed {first : Token} {more : List Token} (rest : List Token)
    (h : ∀ t ∈ first :: more, isTenant tenant t = true) :
    tenantList? tenant (listed first more ++ .rparen :: rest) = some rest := by
  induction more generalizing first with
  | nil =>
    show tenantList? tenant (first :: .rparen :: rest) = some rest
    rw [tenantList?, if_pos (h first List.mem_cons_self)]
  | cons t more ih =>
    obtain ⟨hfirst, hmore⟩ := List.forall_mem_cons.mp h
    show tenantList? tenant (first :: .comma :: (listed t more ++ .rparen :: rest)) = some rest
    rw [tenantList?, if_pos hfirst, ih hmore]

theorem tenants?_eq_some_iff {ts rest : List Token} :
    tenants? tenant ts = some rest ↔ ∃ list, ListsOnly tenant list ∧ ts = list ++ rest := by
  constructor
  · intro h
    unfold tenants? at h
    split at h
    · obtain ⟨first, more, rfl, hall⟩ := tenantList?_eq_some h
      refine ⟨_, ⟨first, more, rfl, fun t ht => isTenant_iff.mp (hall t ht)⟩, ?_⟩
      simp [parenthesized]
    · cases h
  · rintro ⟨_, ⟨first, more, rfl, hall⟩, rfl⟩
    have hlist := tenantList?_listed rest fun t ht => isTenant_iff.mpr (hall t ht)
    simpa [parenthesized, tenants?] using hlist

end Scope

namespace Indexed

open Sql

variable {tenant : Int}

/-! ### Lists by place -/

theorem slice_of_append {ts list rest : List Token} {start : Nat}
    (h : ts.drop start = list ++ rest) (hstart : start ≤ ts.length) :
    slice ts start (ts.length - rest.length) = list := by
  have hlength := drop_length h hstart
  rw [List.length_append] at hlength
  have hstop : ts.length - rest.length = start + list.length := by omega
  rw [hstop, slice_of_drop h, List.take_left]

theorem lt_of_slice_ne_nil {ts : List Token} {start stop : Nat} (h : slice ts start stop ≠ []) :
    start < stop := by
  refine Nat.lt_of_not_le fun hle => h ?_
  rw [slice, Nat.sub_eq_zero_of_le hle, List.take_zero]

theorem drop_eq_slice_append (ts : List Token) {start stop : Nat} (h : start ≤ stop) :
    ts.drop start = slice ts start stop ++ ts.drop stop := by
  obtain ⟨n, rfl⟩ := Nat.exists_eq_add_of_le h
  rw [slice, Nat.add_sub_cancel_left, ← List.drop_drop, List.take_append_drop]

/-- A list that has been read ends where the tokens that are left begin. -/
theorem stop_eq_some_iff {ts : List Token} {start stop : Nat} :
    ((Scope.tenants? tenant (ts.drop start)).map fun rest => ts.length - rest.length) = some stop ↔
      stop ≤ ts.length ∧ Scope.ListsOnly tenant (slice ts start stop) := by
  rw [Option.map_eq_some_iff]
  constructor
  · rintro ⟨rest, hrest, rfl⟩
    obtain ⟨list, hlist, hdrop⟩ := Scope.tenants?_eq_some_iff.mp hrest
    have hstart : start ≤ ts.length := by
      refine Nat.le_of_not_lt fun hlt => hlist.ne_nil ?_
      rw [List.drop_eq_nil_of_le (Nat.le_of_lt hlt)] at hdrop
      exact (List.append_eq_nil_iff.mp hdrop.symm).1
    rw [slice_of_append hdrop hstart]
    exact ⟨Nat.sub_le _ _, hlist⟩
  · rintro ⟨hle, hlist⟩
    have hdrop := drop_eq_slice_append ts (Nat.le_of_lt (lt_of_slice_ne_nil hlist.ne_nil))
    refine ⟨ts.drop stop, Scope.tenants?_eq_some_iff.mpr ⟨_, hlist, hdrop⟩, ?_⟩
    rw [List.length_drop]
    omega

/-! ### Runs of digits, and what is none -/

theorem isTenant_of_not_writes {t : Token} (h : ∀ n, ¬Scope.Writes n t) :
    isTenant tenant t = .ok false := by
  rw [isTenant]
  cases hdigits : Scope.digitsOf? t with
  | none => rfl
  | some digits =>
    have hno : Text.isDigits digits = false := by
      refine Bool.eq_false_iff.mpr fun hrun => ?_
      obtain ⟨hne, hall⟩ := Text.isDigits_iff.mp hrun
      exact h _ ⟨digits, Scope.digitsOf?_eq_some_iff.mp hdigits, hne, hall, rfl⟩
    simp only [hno, guarded_false]

/-- Where no list begins with a run of digits, there is none, whatever the tenant. -/
theorem tenantsAt_of_not_writes {ts : List Token} {start : Nat}
    (h : ∀ first rest n, ts.drop start = .lparen :: first :: rest → ¬Scope.Writes n first) :
    tenantsAt tenant ts start = .ok none := by
  cases hdrop : ts.drop start with
  | nil =>
    rw [tenantsAt, itemIs_eq, hdrop]
    rfl
  | cons t rest =>
    rw [tenantsAt, itemIs_eq, hdrop, ok_bind, List.head?_cons, Option.any_some]
    by_cases ht : t = .lparen
    · rw [if_pos (beq_iff_eq.mpr ht)]
      cases rest with
      | nil => exact tenantListFrom_end (drop_succ hdrop) true
      | cons first rest =>
        have hfirst (n : Int) : ¬Scope.Writes n first := h first rest n (ht ▸ hdrop)
        rw [tenantListFrom_of_drop (drop_succ hdrop), isTenant_of_not_writes hfirst, ok_bind,
          if_neg Bool.false_ne_true]
    · rw [if_neg fun hlparen => ht (beq_iff_eq.mp hlparen)]

section Unwritten

variable (h : ¬HasText tenant) {n : Int} {first : Token} (hfirst : Scope.Writes n first)

include h hfirst

/-- A run of digits is not compared with a tenant that has no text. -/
theorem isTenant_of_writes : isTenant tenant first = .error .longNumber := by
  obtain ⟨digits, ht, hne, hall, _⟩ := hfirst
  simp only [isTenant, Scope.digitsOf?_eq_some_iff.mpr ht, Text.isDigits_iff.mpr ⟨hne, hall⟩,
    guarded_true, decimalText, if_neg h, error_bind]

/-- A list of such a tenant is not read beyond its first literal. -/
theorem tenantsAt_of_writes {ts rest : List Token} {start : Nat}
    (hdrop : ts.drop start = .lparen :: first :: rest) :
    tenantsAt tenant ts start = .error .longNumber := by
  rw [tenantsAt, itemIs_eq, hdrop, ok_bind]
  show tenantListFrom tenant ts (start + 1) true = _
  rw [tenantListFrom_of_drop (drop_succ hdrop), isTenant_of_writes h hfirst, error_bind]

end Unwritten

/-! ### Every tenant -/

/-- By place, a literal is read as the tenant just when it writes the tenant, and a list of tenants
just when there is one, up to where it ends, for every tenant that can be written down.  For any
other tenant a run of digits, or a list that begins with one, ends the reading without an answer;
anything else is no literal and no list. -/
theorem tenants_read_as_written (tenant : Int) :
    (HasText tenant →
      (∀ t, ∃ answer, isTenant tenant t = .ok answer ∧ (answer = true ↔ Scope.Writes tenant t)) ∧
      ∀ ts start, ∃ answer, tenantsAt tenant ts start = .ok answer ∧ ∀ stop,
        answer = some stop ↔ stop ≤ ts.length ∧ Scope.ListsOnly tenant (slice ts start stop)) ∧
    (¬HasText tenant →
      (∀ t n, Scope.Writes n t → isTenant tenant t = .error .longNumber) ∧
      (∀ t, (∀ n, ¬Scope.Writes n t) → isTenant tenant t = .ok false) ∧
      (∀ ts start first rest n, ts.drop start = .lparen :: first :: rest →
        Scope.Writes n first → tenantsAt tenant ts start = .error .longNumber) ∧
      ∀ ts start,
        (∀ first rest n, ts.drop start = .lparen :: first :: rest → ¬Scope.Writes n first) →
        tenantsAt tenant ts start = .ok none) := by
  refine ⟨fun htext => ⟨fun t => ?_, fun ts start => ?_⟩, fun htext => ⟨?_, ?_, ?_, ?_⟩⟩
  · exact ⟨_, isTenant_eq htext t, Scope.isTenant_iff⟩
  · exact ⟨_, tenantsAt_eq htext rfl, fun stop => stop_eq_some_iff⟩
  · intro t n ht
    exact isTenant_of_writes htext ht
  · intro t ht
    exact isTenant_of_not_writes ht
  · intro ts start first rest n hdrop hfirst
    exact tenantsAt_of_writes htext hfirst hdrop
  · intro ts start hno
    exact tenantsAt_of_not_writes hno

/-- A list of the tenant 74 behind two other tokens, with more tokens behind it. -/
def listedTokens : List Token :=
  [.word "restaurant_id".toList, .word ['I', 'N'], .lparen, .number ['7', '4'], .comma,
    .literal .single ['0', '0', '7', '4'], .rparen, .word ['L', 'I', 'M', 'I', 'T']]

/-- The least tenant that has too many digits to be written. -/
def longTenant : Nat := Nat.pow 10 Whole.maxDigits

theorem not_hasText_longTenant : ¬HasText longTenant := by decide +kernel

theorem tenants_read_as_written_in_listedTokens :
    HasText 74 ∧
      isTenant 74 (.literal .double ['0', '7', '4']) = .ok true ∧
      tenantsAt 74 listedTokens 2 = .ok (some 7) ∧
      ¬HasText longTenant ∧
      isTenant longTenant (.literal .double ['0', '7', '4']) = .error .longNumber ∧
      tenantsAt longTenant listedTokens 2 = .error .longNumber ∧
      tenantsAt longTenant listedTokens 1 = .ok none := by
  have htext : HasText 74 := by decide +kernel
  have hliteral : Scope.Writes 74 (.literal .double ['0', '7', '4']) :=
    Scope.isTenant_iff.mp (by decide)
  have hfirst : Scope.Writes 74 (.number ['7', '4']) := Scope.isTenant_iff.mp (by decide)
  have hlist : Scope.ListsOnly 74 (slice listedTokens 2 7) := by
    refine ⟨.number ['7', '4'], [.literal .single ['0', '0', '7', '4']], rfl, ?_⟩
    intro t ht
    rw [← Scope.isTenant_iff]
    revert t
    decide
  obtain ⟨hliterals, hlists⟩ := (tenants_read_as_written 74).1 htext
  obtain ⟨hrun, _, hbegins, hnone⟩ :=
    (tenants_read_as_written longTenant).2 not_hasText_longTenant
  obtain ⟨answer, hanswer, hiff⟩ := hliterals (.literal .double ['0', '7', '4'])
  obtain ⟨found, hfound, hstop⟩ := hlists listedTokens 2
  refine ⟨htext, ?_, ?_, not_hasText_longTenant, hrun _ _ hliteral,
    hbegins _ _ _ _ _ rfl hfirst, hnone _ _ ?_⟩
  · rw [hanswer, hiff.mpr hliteral]
  · rw [hfound, (hstop 7).mpr ⟨by decide, hlist⟩]
  · rintro first rest n ⟨⟩

/-- The digits of that tenant. -/
def longDigits : List Char := Nat.toDigits 10 longTenant

/-- A literal of the long tenant's own digits, and a list of it, are not read as the tenant: there
is no answer.  Nor is there one for a statement about any other tenant. -/
theorem longDigits_without_answer :
    Scope.Writes longTenant (.number longDigits) ∧
      isTenant longTenant (.number longDigits) = .error .longNumber ∧
      Scope.ListsOnly longTenant (slice [.lparen, .number longDigits, .rparen] 0 3) ∧
      tenantsAt longTenant [.lparen, .number longDigits, .rparen] 0 = .error .longNumber ∧
      checkScope "restaurant_id" longTenant
        "SELECT id FROM t WHERE restaurant_id = 7 LIMIT 1".toList = .error .longNumber := by
  have hwrites := Scope.writes_toDigits longTenant
  refine ⟨hwrites, isTenant_of_writes not_hasText_longTenant hwrites, ?_,
    tenantsAt_of_writes not_hasText_longTenant hwrites rfl, ?_⟩
  · exact ⟨.number longDigits, [], rfl, fun t ht => List.mem_singleton.mp ht ▸ hwrites⟩
  · decide +kernel

end Indexed
end QueryGate
