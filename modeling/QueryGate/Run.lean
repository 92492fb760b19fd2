/-!
# Runs that can fail

A run of two steps has a result just when both steps have one, and a run over a list just when every
entry has one.  Where it does not matter what failed, a run is an optional result.
-/

namespace QueryGate

variable {ε α β : Type}

theorem bind_eq_ok {run : Except ε α} {next : α → Except ε β} {y : β} :
    (run >>= next) = .ok y ↔ ∃ x, run = .ok x ∧ next x = .ok y := by
  cases run with
  | error e => exact ⟨nofun, nofun⟩
  | ok x =>
    constructor
    · intro h
      exact ⟨x, rfl, h⟩
    · rintro ⟨_, hx, h⟩
      cases hx
      exact h

theorem toOption_eq_some_iff {run : Except ε α} {x : α} :
    run.toOption = some x ↔ run = .ok x := by
  cases run with
  | error e => exact ⟨nofun, nofun⟩
  | ok y => exact ⟨fun h => congrArg _ (Option.some.inj h), fun h => congrArg _ (Except.ok.inj h)⟩

theorem toOption_bind (run : Except ε α) (next : α → Except ε β) :
    (run >>= next).toOption = run.toOption.bind fun x => (next x).toOption := by
  cases run <;> rfl

/-! ### Runs over lists -/

theorem forM_eq_ok_iff {f : α → Except ε Unit} {xs : List α} :
    xs.forM f = .ok () ↔ ∀ x ∈ xs, f x = .ok () := by
  induction xs with
  | nil => exact ⟨fun _ => nofun, fun _ => rfl⟩
  | cons x xs ih =>
    show (f x >>= fun _ => xs.forM f) = .ok () ↔ _
    rw [bind_eq_ok, List.forall_mem_cons, ← ih]
    constructor
    · rintro ⟨⟨⟩, hx, hxs⟩
      exact ⟨hx, hxs⟩
    · rintro ⟨hx, hxs⟩
      exact ⟨(), hx, hxs⟩

theorem mapM_map {f : α → Except ε β} {g : α → α} {k : β → β}
    (hf : ∀ x, f (g x) = (f x).map k) (xs : List α) :
    (xs.map g).mapM f = (xs.mapM f).map (·.map k) := by
  induction xs with
  | nil => rfl
  | cons x xs ih =>
    rw [List.map_cons, List.mapM_cons, List.mapM_cons, hf, ih]
    cases f x with
    | error e => rfl
    | ok y => cases xs.mapM f <;> rfl

theorem mem_of_mapM {f : α → Except ε β} {xs : List α} {ys : List β} (h : xs.mapM f = .ok ys) :
    (∀ x ∈ xs, ∃ y ∈ ys, f x = .ok y) ∧ ∀ y ∈ ys, ∃ x ∈ xs, f x = .ok y := by
  induction xs generalizing ys with
  | nil =>
    cases h
    exact ⟨nofun, nofun⟩
  | cons x xs ih =>
    rw [List.mapM_cons] at h
    obtain ⟨y, hx, h⟩ := bind_eq_ok.mp h
    obtain ⟨more, hxs, h⟩ := bind_eq_ok.mp h
    cases h
    obtain ⟨hforth, hback⟩ := ih hxs
    refine ⟨?_, ?_⟩
    · intro u hu
      rcases List.mem_cons.mp hu with rfl | hu
      · exact ⟨y, by simp, hx⟩
      · obtain ⟨v, hv, huv⟩ := hforth u hu
        exact ⟨v, by simp [hv], huv⟩
    · intro v hv
      rcases List.mem_cons.mp hv with rfl | hv
      · exact ⟨x, by simp, hx⟩
      · obtain ⟨u, hu, huv⟩ := hback v hv
        exact ⟨u, by simp [hu], huv⟩

theorem exists_mapM_eq_ok {f : α → Except ε β} {p : β → Prop} {xs : List α}
    (h : ∀ x ∈ xs, ∃ y, f x = .ok y ∧ p y) : ∃ ys, xs.mapM f = .ok ys ∧ ∀ y ∈ ys, p y := by
  induction xs with
  | nil => exact ⟨[], rfl, nofun⟩
  | cons x xs ih =>
    obtain ⟨⟨y, hx, hy⟩, htail⟩ := List.forall_mem_cons.mp h
    obtain ⟨ys, hxs, hys⟩ := ih htail
    refine ⟨y :: ys, ?_, List.forall_mem_cons.mpr ⟨hy, hys⟩⟩
    rw [List.mapM_cons, hx, hxs]
    rfl

theorem mapM_concat_eq_ok_iff {f : α → Except ε β} {xs : List α} {x : α}
    {ys : List β} :
    (xs ++ [x]).mapM f = .ok ys ↔ ∃ zs z, xs.mapM f = .ok zs ∧ f x = .ok z ∧ ys = zs ++ [z] := by
  rw [List.mapM_append, bind_eq_ok]
  constructor
  · rintro ⟨zs, hzs, h⟩
    obtain ⟨last, hlast, h⟩ := bind_eq_ok.mp h
    rw [List.mapM_cons, List.mapM_nil] at hlast
    obtain ⟨z, hz, hlast⟩ := bind_eq_ok.mp hlast
    cases hlast
    cases h
    exact ⟨zs, z, hzs, hz, rfl⟩
  · rintro ⟨zs, z, hzs, hz, rfl⟩
    refine ⟨zs, hzs, bind_eq_ok.mpr ⟨[z], ?_, rfl⟩⟩
    rw [List.mapM_cons, hz]
    rfl

end QueryGate
