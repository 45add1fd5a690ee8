import Mathlib.Data.List.Forall2

/-!
Computations that return or stop with a fault, opened from their result (`bind_eq_ok`,
`mapM_eq_ok`, `run_bind`).
-/
namespace IdlGen.Outcome

variable {ε α β : Type} {outcome : Except ε α} {b : β} {f : α → Except ε β} {items : List α}
  {results : List β}

theorem bind_eq_ok {next : α → Except ε β} :
    (outcome >>= next) = .ok b ↔ ∃ a, outcome = .ok a ∧ next a = .ok b := by
  cases outcome <;> simp [bind, Except.bind]

theorem map_eq_ok {f : α → β} : (f <$> outcome) = .ok b ↔ ∃ a, outcome = .ok a ∧ f a = b := by
  cases outcome <;> simp [Functor.map, Except.map]

theorem toOption_eq_some {a : α} : outcome.toOption = some a ↔ outcome = .ok a := by
  cases outcome <;> simp [Except.toOption]

theorem isSome_toOption : outcome.toOption.isSome ↔ ∃ a, outcome = .ok a := by
  cases outcome <;> simp [Except.toOption]

theorem isNone_toOption : outcome.toOption.isNone ↔ ∃ fault, outcome = .error fault := by
  cases outcome <;> simp [Except.toOption]

theorem mapM_eq_ok :
    items.mapM f = .ok results ↔ List.Forall₂ (fun a b => f a = .ok b) items results := by
  induction items generalizing results with
  | nil => simp [pure, Except.pure, eq_comm]
  | cons item rest ih =>
    rw [List.mapM_cons]
    simp only [bind_eq_ok, ih, List.forall₂_cons_left_iff, pure, Except.pure, Except.ok.injEq]
    constructor
    · rintro ⟨b, first, later, others, rfl⟩
      exact ⟨b, later, first, others, rfl⟩
    · rintro ⟨b, later, first, others, rfl⟩
      exact ⟨b, first, later, others, rfl⟩

theorem mapM_eq_map {h : α → β} (each : ∀ a ∈ items, f a = .ok (h a)) :
    items.mapM f = .ok (items.map h) := by
  induction items with
  | nil => rfl
  | cons item rest ih =>
    obtain ⟨first, later⟩ := List.forall_mem_cons.mp each
    rw [List.mapM_cons, first, ih later]
    rfl

theorem mapM_perm {order : List α} (reordered : items.Perm order)
    (done : items.mapM f = .ok results) :
    ∃ others, order.mapM f = .ok others ∧ results.Perm others := by
  induction reordered generalizing results with
  | nil => exact ⟨results, done, .refl _⟩
  | cons a _ ih =>
    rw [List.mapM_cons] at done
    obtain ⟨b, first, done⟩ := bind_eq_ok.mp done
    obtain ⟨rest, later, made⟩ := bind_eq_ok.mp done
    cases made
    obtain ⟨others, otherwise, reordered⟩ := ih later
    refine ⟨b :: others, ?_, reordered.cons b⟩
    rw [List.mapM_cons, first, otherwise]
    rfl
  | swap a b rest =>
    rw [List.mapM_cons] at done
    obtain ⟨y, second, done⟩ := bind_eq_ok.mp done
    obtain ⟨tail, inner, made⟩ := bind_eq_ok.mp done
    cases made
    rw [List.mapM_cons] at inner
    obtain ⟨x, first, inner⟩ := bind_eq_ok.mp inner
    obtain ⟨others, later, made⟩ := bind_eq_ok.mp inner
    cases made
    refine ⟨x :: y :: others, ?_, .swap ..⟩
    rw [List.mapM_cons, List.mapM_cons, first, second, later]
    rfl
  | trans _ _ before after =>
    obtain ⟨middle, done, first⟩ := before done
    obtain ⟨others, done, second⟩ := after done
    exact ⟨others, done, first.trans second⟩

theorem mem_of_forall₂ {R : α → β → Prop} {as : List α} {bs : List β}
    (pairs : List.Forall₂ R as bs) {b : β} (member : b ∈ bs) : ∃ a ∈ as, R a b := by
  induction pairs with
  | nil => cases member
  | cons first rest ih =>
    rcases List.mem_cons.mp member with rfl | later
    · exact ⟨_, List.mem_cons_self .., first⟩
    · obtain ⟨a, known, same⟩ := ih later
      exact ⟨a, List.mem_cons_of_mem _ known, same⟩

theorem mem_of_mapM (done : items.mapM f = .ok results) (member : b ∈ results) :
    ∃ a ∈ items, f a = .ok b := mem_of_forall₂ (mapM_eq_ok.mp done) member

theorem exists_of_mapM (done : items.mapM f = .ok results) {a : α} (member : a ∈ items) :
    ∃ b ∈ results, f a = .ok b := mem_of_forall₂ (mapM_eq_ok.mp done).flip member

theorem filterM_eq_ok {p : α → Except ε Bool} {kept : List α} (done : items.filterM p = .ok kept) :
    kept = items.filter fun a => (p a).toOption == some true := by
  -- What is found on the way stands in reverse.
  have general : ∀ (items found result : List α), List.filterAuxM p items found = .ok result →
      result = (items.filter fun a => (p a).toOption == some true).reverse ++ found := by
    intro items
    induction items with
    | nil =>
      intro found result done
      cases done
      simp
    | cons a rest ih =>
      intro found result done
      obtain ⟨answer, asked, done⟩ := bind_eq_ok.mp done
      rw [ih _ _ done, List.filter_cons, asked]
      cases answer <;> simp [Except.toOption]
  obtain ⟨found, searched, same⟩ := bind_eq_ok.mp done
  cases same
  rw [general items [] found searched]
  simp

theorem names_of_mapM {ν : Type} {name : α → ν} {results : List (ν × β)}
    (done : items.mapM (fun a => do return (name a, ← f a)) = .ok results) :
    results.map (·.1) = items.map name := by
  have pairs := mapM_eq_ok.mp done
  clear done
  induction pairs with
  | nil => rfl
  | cons first rest ih =>
    obtain ⟨b, -, same⟩ := bind_eq_ok.mp first
    cases same
    simp [ih]

/-! ### Outcomes that are kept -/

/-- The later outcome is the earlier one, unless that is a fault that gives way. -/
def KeptBut (weak : ε → Prop) (before after : Except ε α) : Prop :=
  (∀ fault, before = .error fault → ¬ weak fault) → after = before

abbrev Kept (before after : Except ε α) : Prop := KeptBut (fun _ => True) before after

section
variable {weak : ε → Prop} {before after : Except ε α}

theorem kept_refl (outcome : Except ε α) : KeptBut weak outcome outcome := fun _ => rfl

theorem kept_fault {fault : ε} (gives : weak fault) (after : Except ε α) :
    KeptBut weak (.error fault) after := fun strong => absurd gives (strong fault rfl)

theorem kept_of_ok (same : ∀ a, before = .ok a → after = .ok a) : Kept before after := by
  cases before with
  | error fault => exact kept_fault trivial after
  | ok a => exact fun _ => same a rfl

theorem KeptBut.ok (kept : KeptBut weak before after) {a : α} (done : before = .ok a) :
    after = .ok a := by
  subst done
  exact kept fun _ failed => by cases failed

theorem KeptBut.bind {next next' : α → Except ε β} (first : KeptBut weak before after)
    (rest : ∀ a, before = .ok a → KeptBut weak (next a) (next' a)) :
    KeptBut weak (before >>= next) (after >>= next') := by
  intro strong
  have same : after = before := first fun fault failed => strong fault (by rw [failed]; rfl)
  rw [same]
  cases before with
  | error fault => rfl
  | ok a => exact rest a rfl strong

theorem KeptBut.map (f : α → β) (kept : KeptBut weak before after) :
    KeptBut weak (f <$> before) (f <$> after) := by
  rw [map_eq_pure_bind, map_eq_pure_bind]
  exact kept.bind fun _ _ => kept_refl _

theorem KeptBut.mapM {f f' : α → Except ε β} {items : List α}
    (each : ∀ a ∈ items, KeptBut weak (f a) (f' a)) :
    KeptBut weak (items.mapM f) (items.mapM f') := by
  induction items with
  | nil => exact kept_refl _
  | cons item rest ih =>
    obtain ⟨first, later⟩ := List.forall_mem_cons.mp each
    rw [List.mapM_cons, List.mapM_cons]
    exact first.bind fun _ _ => (ih later).bind fun _ _ => kept_refl _

theorem KeptBut.foldlM {f f' : β → α → Except ε β} {items : List α}
    (each : ∀ a ∈ items, ∀ b, KeptBut weak (f b a) (f' b a)) (start : β) :
    KeptBut weak (items.foldlM f start) (items.foldlM f' start) := by
  induction items generalizing start with
  | nil => exact kept_refl _
  | cons item rest ih =>
    obtain ⟨first, later⟩ := List.forall_mem_cons.mp each
    rw [List.foldlM_cons, List.foldlM_cons]
    exact (first start).bind fun b _ => ih later b

end

/-! ### Steps on a state -/

variable {σ : Type} {m : ExceptT ε (StateM σ) α}

theorem run_bind (m : ExceptT ε (StateM σ) α) (f : α → ExceptT ε (StateM σ) β) (state : σ) :
    (m >>= f).run state =
      match m.run state with
      | (.ok a, after) => (f a).run after
      | (.error fault, after) => (.error fault, after) := by
  simp only [ExceptT.run, bind, ExceptT.bind, ExceptT.mk, StateT.bind]
  obtain ⟨outcome, after⟩ := m state
  cases outcome <;> rfl

theorem run_pure (a : α) (state : σ) :
    (pure a : ExceptT ε (StateM σ) α).run state = (.ok a, state) := rfl

theorem run_get (state : σ) : (get : ExceptT ε (StateM σ) σ).run state = (.ok state, state) := rfl

theorem run_modify (f : σ → σ) (state : σ) :
    (modify f : ExceptT ε (StateM σ) Unit).run state = (.ok (), f state) := rfl

theorem run_throw (fault : ε) (state : σ) :
    (throw fault : ExceptT ε (StateM σ) α).run state = (.error fault, state) := rfl

theorem run_bind_ok {f : α → ExceptT ε (StateM σ) β} {state last : σ}
    (ran : (m >>= f).run state = (.ok b, last)) :
    ∃ a next, m.run state = (.ok a, next) ∧ (f a).run next = (.ok b, last) := by
  rw [run_bind] at ran
  split at ran
  · rename_i a next first
    exact ⟨a, next, first, ran⟩
  · cases ran

def Keeps {τ : Type} (view : σ → τ) (m : ExceptT ε (StateM σ) α) : Prop :=
  ∀ state, view (m.run state).2 = view state

section
variable {τ : Type} {view : σ → τ}

theorem keeps_pure (a : α) : Keeps view (pure a : ExceptT ε (StateM σ) α) := fun _ => rfl

theorem keeps_throw (fault : ε) : Keeps view (throw fault : ExceptT ε (StateM σ) α) := fun _ => rfl

theorem keeps_get : Keeps view (get : ExceptT ε (StateM σ) σ) := fun _ => rfl

variable {f : α → ExceptT ε (StateM σ) β}

theorem Keeps.bind {m : ExceptT ε (StateM σ) α} (first : Keeps view m)
    (rest : ∀ a, Keeps view (f a)) : Keeps view (m >>= f) := by
  intro state
  have start := first state
  rw [run_bind]
  split
  · rename_i a after ran
    rw [ran] at start
    rw [rest a after, start]
  · rename_i fault after ran
    rw [ran] at start
    exact start

end

end IdlGen.Outcome
