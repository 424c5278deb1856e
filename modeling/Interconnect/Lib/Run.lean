import Mathlib.Data.List.Infix

/-! Finite runs of a labelled step relation, the invariants they keep, and the
exact set of runs along which a state property holds throughout. -/

namespace Runs

variable {σ α : Type*}

/-- A run is the list of labels taken, oldest first, with the state they lead to. -/
inductive Run (R : σ → α → σ → Prop) (s₀ : σ) : List α → σ → Prop
  | nil : Run R s₀ [] s₀
  | snoc {as : List α} {s s' : σ} {a : α} : Run R s₀ as s → R s a s' → Run R s₀ (as ++ [a]) s'

def Steps (next : σ → α → Option σ) (s : σ) (a : α) (s' : σ) : Prop := next s a = some s'

/-- The steps of `R` that are taken only where `G` allows them. -/
def Guarded (G : σ → α → Prop) (R : σ → α → σ → Prop) (s : σ) (a : α) (s' : σ) : Prop :=
  G s a ∧ R s a s'

def Deterministic (R : σ → α → σ → Prop) : Prop := ∀ s a t u, R s a t → R s a u → t = u

/-- `P` holds of every state the run with labels `as` passes through, its ends included. -/
def Always (R : σ → α → σ → Prop) (s₀ : σ) (as : List α) (P : σ → Prop) : Prop :=
  ∀ bs t, bs <+: as → Run R s₀ bs t → P t

def exec (next : σ → α → Option σ) (s : σ) : List α → Option σ
  | [] => some s
  | a :: as => (next s a).bind fun s' => exec next s' as

theorem steps_deterministic (next : σ → α → Option σ) : Deterministic (Steps next) := by
  intro s a t u ht hu
  exact Option.some.inj (ht.symm.trans hu)

variable {R : σ → α → σ → Prop} {s₀ s s' : σ} {as bs : List α}

theorem Run.invariant (P : σ → Prop) (h : Run R s₀ as s) (h₀ : P s₀)
    (hstep : ∀ s a s', P s → R s a s' → P s') : P s := by
  induction h with
  | nil => exact h₀
  | snoc _ hs ih => exact hstep _ _ _ ih hs

theorem Run.invariant_of_labels (ok : α → Prop) (P : σ → Prop) (h : Run R s₀ as s)
    (hok : ∀ a ∈ as, ok a) (h₀ : P s₀) (hstep : ∀ s a s', P s → ok a → R s a s' → P s') : P s := by
  induction h with
  | nil => exact h₀
  | snoc _ hs ih =>
    have hlast := hok _ (List.mem_append_right _ (List.mem_singleton_self _))
    exact hstep _ _ _ (ih fun a ha => hok a (List.mem_append_left _ ha)) hlast hs

theorem Run.mono {R' : σ → α → σ → Prop} (hR : ∀ s a s', R s a s' → R' s a s')
    (h : Run R s₀ as s) : Run R' s₀ as s := by
  induction h with
  | nil => exact .nil
  | snoc _ hs ih => exact .snoc ih (hR _ _ _ hs)

theorem Run.single {a : α} (h : R s a s') : Run R s [a] s' := Run.snoc .nil h

theorem Run.append {t : σ} (h : Run R s₀ as s) (h' : Run R s bs t) : Run R s₀ (as ++ bs) t := by
  induction h' with
  | nil => simpa using h
  | snoc _ hs ih =>
    rw [← List.append_assoc]
    exact .snoc ih hs

theorem Run.cons {a : α} (hs : R s₀ a s) (h : Run R s as s') : Run R s₀ (a :: as) s' := by
  induction h with
  | nil => exact Run.snoc .nil hs
  | snoc _ hs' ih => exact Run.snoc ih hs'

theorem run_of_exec {next : σ → α → Option σ} (h : exec next s₀ as = some s) :
    Run (Steps next) s₀ as s := by
  induction as generalizing s₀ with
  | nil =>
    cases h
    exact .nil
  | cons a as ih =>
    obtain ⟨t, ht, hrest⟩ := Option.bind_eq_some_iff.mp h
    exact Run.cons ht (ih hrest)

theorem Run.exists_prefix (h : Run R s₀ as s) (hp : bs <+: as) : ∃ t, Run R s₀ bs t := by
  induction h with
  | nil => exact ⟨s₀, by rw [List.prefix_nil.mp hp]; exact .nil⟩
  | @snoc as t t' a hr hs ih =>
    rcases List.prefix_concat_iff.mp (by simpa using hp) with rfl | hp
    · exact ⟨t', by simpa using Run.snoc hr hs⟩
    · exact ih hp

theorem Run.eq_of_nil (h : Run R s₀ [] s) : s = s₀ := by
  generalize he : ([] : List α) = cs at h
  cases h with
  | nil => rfl
  | snoc => exact absurd he (by simp)

theorem Run.last {a : α} (h : Run R s₀ (as ++ [a]) s') : ∃ s, Run R s₀ as s ∧ R s a s' := by
  generalize he : as ++ [a] = cs at h
  cases h with
  | nil => exact absurd he (by simp)
  | snoc hr hs =>
    obtain ⟨rfl, hl⟩ := List.append_inj' he rfl
    cases hl
    exact ⟨_, hr, hs⟩

theorem Run.uncons {a : α} (h : Run R s₀ (a :: as) s') : ∃ s, R s₀ a s ∧ Run R s as s' := by
  generalize he : a :: as = cs at h
  induction h generalizing as with
  | nil => exact absurd he (by simp)
  | @snoc bs t t' b hr hs ih =>
    cases bs with
    | nil =>
      cases he
      cases hr.eq_of_nil
      exact ⟨t', hs, .nil⟩
    | cons c cs =>
      obtain ⟨rfl, rfl⟩ := List.cons.inj he
      obtain ⟨s, hfirst, hrest⟩ := ih rfl
      exact ⟨s, hfirst, .snoc hrest hs⟩

theorem Run.unique (hR : Deterministic R) (h : Run R s₀ as s) (h' : Run R s₀ as s') : s = s' := by
  induction h generalizing s' with
  | nil => exact h'.eq_of_nil.symm
  | snoc _ hs ih =>
    obtain ⟨t, hr, hs'⟩ := Run.last h'
    rw [ih hr] at hs
    exact hR _ _ _ _ hs hs'

theorem Run.guarded_labels_iff {ok : α → Prop} (h : Run R s₀ as s) :
    Run (Guarded (fun _ a => ok a) R) s₀ as s ↔ ∀ a ∈ as, ok a := by
  refine ⟨fun hg => ?_, fun hok => ?_⟩
  · clear h
    induction hg with
    | nil =>
      intro a ha
      cases ha
    | snoc _ hs ih =>
      intro a ha
      rcases List.mem_append.mp ha with ha | ha
      · exact ih a ha
      · rw [List.mem_singleton.mp ha]
        exact hs.1
  · induction h with
    | nil => exact .nil
    | snoc _ hs ih =>
      have hlast := hok _ (List.mem_append_right _ (List.mem_singleton_self _))
      exact .snoc (ih fun a ha => hok a (List.mem_append_left _ ha)) ⟨hlast, hs⟩

theorem Run.guarded {G : σ → α → Prop} (h : Run R s₀ as s) (hG : ∀ a ∈ as, ∀ t, G t a) :
    Run (Guarded G R) s₀ as s :=
  (h.guarded_labels_iff.mpr hG).mono fun t _ _ hs => ⟨hs.1 t, hs.2⟩

theorem Always.of_prefix {P : σ → Prop} (h : Always R s₀ as P) (hp : bs <+: as) :
    Always R s₀ bs P :=
  fun cs t hc ht => h cs t (hc.trans hp) ht

/-- Where every step that meets `G` keeps an invariant that gives `P`, and every other
step breaks `P`, the runs along which `P` always holds are those whose steps meet `G`. -/
theorem always_iff_guarded {G : σ → α → Prop} {P : σ → Prop} (Inv : σ → Prop)
    (hR : Deterministic R)
    (h₀ : Inv s₀) (hP : ∀ s, Inv s → P s)
    (hgood : ∀ s a s', Inv s → G s a → R s a s' → Inv s')
    (hbad : ∀ s a s', Inv s → ¬ G s a → R s a s' → ¬ P s') (h : Run R s₀ as s) :
    Always R s₀ as P ↔ Run (Guarded G R) s₀ as s := by
  have inv : ∀ {bs t}, Run (Guarded G R) s₀ bs t → Inv t := fun hr =>
    hr.invariant Inv h₀ fun s a s' hi hs => hgood s a s' hi hs.1 hs.2
  refine ⟨fun ha => ?_, fun hg bs t hp ht => ?_⟩
  · induction h with
    | nil => exact .nil
    | @snoc as s s' a hr hs ih =>
      have hg := ih (ha.of_prefix (List.prefix_append _ _))
      refine .snoc hg ⟨?_, hs⟩
      by_contra hG
      exact hbad s a s' (inv hg) hG hs (ha _ _ List.prefix_rfl (.snoc hr hs))
  · obtain ⟨u, hu⟩ := hg.exists_prefix hp
    have hu' : Run R s₀ bs u := hu.mono fun _ _ _ hs => hs.2
    rw [Run.unique hR ht hu']
    exact hP u (inv hu)

end Runs
