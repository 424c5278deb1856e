import Mathlib.Data.List.Forall2

/-! Programs that call a client, one call after the other, and stop at the first failure they
do not catch. The client has a state of its own and may answer a call as it likes; a program
keeps what it has called and what it was answered. -/

namespace Sessions

variable {σ κ ε δ α : Type*}

structure Client (σ κ ε : Type*) where
  call : σ → κ → σ × Except ε Unit

abbrev Trace (κ ε : Type*) := List (κ × Except ε Unit)

/-- A client in state `s` answers the calls of the trace as the trace says, and is then in
state `s'`. -/
inductive Answers (C : Client σ κ ε) : σ → Trace κ ε → σ → Prop
  | nil (s : σ) : Answers C s [] s
  | cons {s s' : σ} {k : κ} {t : Trace κ ε} : Answers C (C.call s k).1 t s' →
      Answers C s ((k, (C.call s k).2) :: t) s'

structure Ran (σ κ ε δ : Type*) where
  client : σ
  trace : Trace κ ε
  result : Except δ Unit

abbrev Program (σ κ ε δ : Type*) := σ → Ran σ κ ε δ

namespace Program

def done : Program σ κ ε δ := fun s => ⟨s, [], .ok ()⟩

def throw (e : δ) : Program σ κ ε δ := fun s => ⟨s, [], .error e⟩

def call (C : Client σ κ ε) (k : κ) : Program σ κ ε ε := fun s =>
  ⟨(C.call s k).1, [(k, (C.call s k).2)], (C.call s k).2⟩

def andThen (p q : Program σ κ ε δ) : Program σ κ ε δ := fun s =>
  match (p s).result with
  | .ok _ =>
    let r := q (p s).client
    ⟨r.client, (p s).trace ++ r.trace, r.result⟩
  | .error _ => p s

def catching {δ' : Type*} (p : Program σ κ ε δ) (handler : δ → Program σ κ ε δ') :
    Program σ κ ε δ' := fun s =>
  match (p s).result with
  | .ok _ => ⟨(p s).client, (p s).trace, .ok ()⟩
  | .error e =>
    let r := handler e (p s).client
    ⟨r.client, (p s).trace ++ r.trace, r.result⟩

def forEach (f : α → Program σ κ ε δ) : List α → Program σ κ ε δ
  | [] => done
  | x :: xs => (f x).andThen (forEach f xs)

variable {p q : Program σ κ ε δ} {s : σ}

theorem andThen_of_ok (h : (p s).result = .ok ()) :
    p.andThen q s = ⟨(q (p s).client).client, (p s).trace ++ (q (p s).client).trace,
      (q (p s).client).result⟩ := by
  simp only [andThen, h]

theorem andThen_of_error {e : δ} (h : (p s).result = .error e) : p.andThen q s = p s := by
  simp only [andThen, h]

theorem catching_of_ok {δ' : Type*} {handler : δ → Program σ κ ε δ'} (h : (p s).result = .ok ()) :
    p.catching handler s = ⟨(p s).client, (p s).trace, .ok ()⟩ := by
  simp only [catching, h]

theorem catching_of_error {δ' : Type*} {handler : δ → Program σ κ ε δ'} {e : δ}
    (h : (p s).result = .error e) :
    p.catching handler s = ⟨(handler e (p s).client).client,
      (p s).trace ++ (handler e (p s).client).trace, (handler e (p s).client).result⟩ := by
  simp only [catching, h]

theorem andThen_ok (h : (p.andThen q s).result = .ok ()) :
    (p s).result = .ok () ∧ (q (p s).client).result = .ok () ∧
      (p.andThen q s).client = (q (p s).client).client := by
  cases hp : (p s).result with
  | ok u =>
    rw [andThen_of_ok hp] at h ⊢
    exact ⟨rfl, h, rfl⟩
  | error e =>
    rw [andThen_of_error hp, hp] at h
    cases h

end Program

theorem Answers.append {C : Client σ κ ε} {s s' s'' : σ} {t t' : Trace κ ε} (h : Answers C s t s')
    (h' : Answers C s' t' s'') : Answers C s (t ++ t') s'' := by
  induction h with
  | nil => exact h'
  | cons _ ih => exact .cons (ih h')

def Program.Calls (p : Program σ κ ε δ) (C : Client σ κ ε) : Prop :=
  ∀ s, Answers C s (p s).trace (p s).client

section

variable {C : Client σ κ ε}

theorem calls_done : (Program.done : Program σ κ ε δ).Calls C := fun s => .nil s

theorem calls_throw (e : δ) : (Program.throw e : Program σ κ ε δ).Calls C := fun s => .nil s

theorem calls_call (k : κ) : (Program.call C k).Calls C := fun _ => .cons (.nil _)

theorem Program.Calls.andThen {p q : Program σ κ ε δ} (hp : p.Calls C) (hq : q.Calls C) :
    (p.andThen q).Calls C := by
  intro s
  cases h : (p s).result with
  | ok u =>
    rw [andThen_of_ok h]
    exact (hp s).append (hq _)
  | error e =>
    rw [andThen_of_error h]
    exact hp s

theorem Program.Calls.catching {δ' : Type*} {p : Program σ κ ε δ}
    {handler : δ → Program σ κ ε δ'} (hp : p.Calls C) (hh : ∀ e, (handler e).Calls C) :
    (p.catching handler).Calls C := by
  intro s
  cases h : (p s).result with
  | ok u =>
    rw [catching_of_ok h]
    exact hp s
  | error e =>
    rw [catching_of_error h]
    exact (hp s).append (hh e _)

theorem calls_forEach {f : α → Program σ κ ε δ} (h : ∀ x, (f x).Calls C) (xs : List α) :
    (Program.forEach f xs).Calls C := by
  induction xs with
  | nil => exact calls_done
  | cons x xs ih => exact (h x).andThen ih

end

/-- The program, from some state of the client, makes the calls of `t` and comes to its end. -/
def Program.Ends (p : Program σ κ ε δ) (t : Trace κ ε) : Prop :=
  ∃ s, (p s).trace = t ∧ (p s).result = .ok ()

def Program.Fails (p : Program σ κ ε δ) (t : Trace κ ε) (e : δ) : Prop :=
  ∃ s, (p s).trace = t ∧ (p s).result = .error e

/-- A loop has done all its elements in order, or has stopped in the first one that threw. -/
inductive Program.Looped (f : α → Program σ κ ε δ) (xs : List α) : Trace κ ε → Except δ Unit → Prop
  | ended (ts : List (Trace κ ε)) : List.Forall₂ (fun x t => (f x).Ends t) xs ts →
      Looped f xs ts.flatten (.ok ())
  | stopped (before : List α) (x : α) (after : List α) (ts : List (Trace κ ε)) (t : Trace κ ε)
      (e : δ) : xs = before ++ x :: after →
      List.Forall₂ (fun x t => (f x).Ends t) before ts → (f x).Fails t e →
      Looped f xs (ts.flatten ++ t) (.error e)

theorem forEach_looped (f : α → Program σ κ ε δ) (xs : List α) (s : σ) :
    Program.Looped f xs (Program.forEach f xs s).trace (Program.forEach f xs s).result := by
  induction xs generalizing s with
  | nil => exact .ended [] .nil
  | cons x xs ih =>
    cases hx : (f x s).result with
    | error e =>
      rw [Program.forEach, Program.andThen_of_error hx, hx]
      exact .stopped [] x xs [] _ e rfl .nil ⟨s, rfl, hx⟩
    | ok u =>
      rw [Program.forEach, Program.andThen_of_ok hx]
      have hfirst : (f x).Ends (f x s).trace := ⟨s, rfl, hx⟩
      have hrest := ih (f x s).client
      generalize Program.forEach f xs (f x s).client = r at hrest ⊢
      obtain ⟨c, t', result⟩ := r
      cases hrest with
      | ended ts hts => exact .ended (_ :: ts) (.cons hfirst hts)
      | stopped before y after ts t e hxs hts hy =>
        have hstop : Program.Looped f (x :: xs) (((f x s).trace :: ts).flatten ++ t) (.error e) :=
          .stopped (x :: before) y after _ t e (by rw [hxs]; rfl) (.cons hfirst hts) hy
        rwa [List.flatten_cons, List.append_assoc] at hstop

theorem forall_mem_flatten {β : Type*} {R : α → List β → Prop} {Q : β → Prop} {xs : List α}
    {ts : List (List β)} (h : List.Forall₂ R xs ts) (hQ : ∀ x t, R x t → ∀ y ∈ t, Q y) :
    ∀ y ∈ ts.flatten, Q y := by
  induction h with
  | nil => exact fun y hy => nomatch hy
  | cons hx _ ih =>
    intro y hy
    rcases List.mem_append.mp hy with hy | hy
    · exact hQ _ _ hx y hy
    · exact ih y hy

theorem forall_of_forall₂ {β : Type*} {R : α → β → Prop} {Q : α → Prop} {xs : List α} {ts : List β}
    (h : List.Forall₂ R xs ts) (hQ : ∀ x t, R x t → Q x) : ∀ x ∈ xs, Q x :=
  ((List.forall₂_and_left xs ts).mp (h.imp fun x t hR => ⟨hQ x t hR, hR⟩)).1

def Accepts (C : Client σ κ ε) : σ → List κ → Prop
  | _, [] => True
  | s, k :: ks => (C.call s k).2 = .ok () ∧ Accepts C (C.call s k).1 ks

def fulfilled (ks : List κ) : Trace κ ε := ks.map fun k => (k, .ok ())

theorem fulfilled_append (ks ks' : List κ) :
    (fulfilled (ks ++ ks') : Trace κ ε) = fulfilled ks ++ fulfilled ks' := List.map_append

theorem Answers.uncons {C : Client σ κ ε} {s s' : σ} {k : κ} {a : Except ε Unit} {t : Trace κ ε}
    (h : Answers C s ((k, a) :: t) s') : (C.call s k).2 = a ∧ Answers C (C.call s k).1 t s' := by
  generalize hu : ((k, a) :: t : Trace κ ε) = u at h
  cases h with
  | nil => cases hu
  | cons hrest =>
    injection hu with hhead htail
    injection hhead with hk ha
    subst hk htail
    exact ⟨ha.symm, hrest⟩

theorem accepts_of_answers {C : Client σ κ ε} {s s' : σ} {ks : List κ}
    (h : Answers C s (fulfilled ks) s') : Accepts C s ks := by
  induction ks generalizing s with
  | nil => trivial
  | cons k ks ih =>
    obtain ⟨hok, hrest⟩ := h.uncons
    exact ⟨hok, ih hrest⟩

theorem not_accepts_of_answers {C : Client σ κ ε} {s s' : σ} {ks : List κ} {k : κ} {e : ε}
    {t : Trace κ ε} (h : Answers C s (fulfilled ks ++ (k, .error e) :: t) s') (ks' : List κ) :
    ¬ Accepts C s (ks ++ k :: ks') := by
  induction ks generalizing s with
  | nil =>
    rintro ⟨hok, -⟩
    exact nomatch h.uncons.1.symm.trans hok
  | cons k' ks ih =>
    rintro ⟨-, hrest⟩
    exact ih h.uncons.2 hrest

end Sessions
