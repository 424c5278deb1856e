import Interconnect.Lib.Run

/-! Simulations: every step of one relation is matched by some steps of another, between related
states. What holds of the runs of the second then holds of those of the first. -/

namespace Runs

variable {σ τ υ α β γ : Type*}

/-- A step of `R` from a related state, with a label that `ok` allows, is matched by steps of `R'`,
none or more, with labels that `ok'` allows. -/
def Simulates (R : σ → α → σ → Prop) (R' : τ → β → τ → Prop) (rel : σ → τ → Prop)
    (ok : α → Prop) (ok' : β → Prop) : Prop :=
  ∀ s a s' t, rel s t → ok a → R s a s' →
    ∃ bs t', (∀ b ∈ bs, ok' b) ∧ Run R' t bs t' ∧ rel s' t'

variable {R : σ → α → σ → Prop} {R' : τ → β → τ → Prop} {R'' : υ → γ → υ → Prop}
  {rel : σ → τ → Prop} {rel' : τ → υ → Prop} {ok : α → Prop} {ok' : β → Prop} {ok'' : γ → Prop}

theorem Simulates.run (h : Simulates R R' rel ok ok') {s s' : σ} {t : τ} {as : List α}
    (hrel : rel s t) (hok : ∀ a ∈ as, ok a) (hr : Run R s as s') :
    ∃ bs t', (∀ b ∈ bs, ok' b) ∧ Run R' t bs t' ∧ rel s' t' := by
  induction hr with
  | nil => exact ⟨[], t, fun _ hb => (nomatch hb), .nil, hrel⟩
  | snoc _ hs ih =>
    obtain ⟨bs, u, hbs, hu, hrelu⟩ := ih fun a ha => hok a (List.mem_append_left _ ha)
    have hlast := hok _ (List.mem_append_right _ (List.mem_singleton_self _))
    obtain ⟨cs, u', hcs, hu', hrelu'⟩ := h _ _ _ _ hrelu hlast hs
    refine ⟨bs ++ cs, u', fun b hb => ?_, hu.append hu', hrelu'⟩
    rcases List.mem_append.mp hb with hb | hb
    · exact hbs b hb
    · exact hcs b hb

theorem Simulates.mono {Q : σ → α → σ → Prop} {Q' : τ → β → τ → Prop} (h : Simulates R R' rel ok ok')
    (hQ : ∀ s a s', Q s a s' → R s a s') (hQ' : ∀ t b t', R' t b t' → Q' t b t') :
    Simulates Q Q' rel ok ok' := by
  intro s a s' t hrel ha hs
  obtain ⟨bs, t', hbs, ht, hrel'⟩ := h s a s' t hrel ha (hQ s a s' hs)
  exact ⟨bs, t', hbs, ht.mono hQ', hrel'⟩

end Runs
