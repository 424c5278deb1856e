import Interconnect.Lib.Session

/-! Programs that do not choose: as long as its calls are fulfilled, such a program makes the calls of
a plan, in order, and then ends as the plan says; it stops at the first call that fails. A program
for one client can also be run on another that understands its calls. -/

namespace Sessions

variable {σ κ κ' ε δ α : Type*}

def Client.after (C : Client σ κ ε) (s : σ) (ks : List κ) : σ := ks.foldl (fun s k => (C.call s k).1) s

variable {C : Client σ κ ε} {s : σ} {ks ks' : List κ}

theorem Client.after_append : C.after s (ks ++ ks') = C.after (C.after s ks) ks' :=
  List.foldl_append

theorem accepts_append : Accepts C s (ks ++ ks') ↔ Accepts C s ks ∧ Accepts C (C.after s ks) ks' := by
  induction ks generalizing s with
  | nil => simp [Accepts, Client.after]
  | cons k ks ih => simp only [List.cons_append, Accepts, ih, and_assoc]; rfl

structure Plan (κ δ : Type*) where
  calls : List κ
  ending : Except δ Unit

namespace Plan

def done : Plan κ δ := ⟨[], .ok ()⟩

def throw (e : δ) : Plan κ δ := ⟨[], .error e⟩

def call (k : κ) : Plan κ δ := ⟨[k], .ok ()⟩

def andThen (p q : Plan κ δ) : Plan κ δ :=
  match p.ending with
  | .ok _ => ⟨p.calls ++ q.calls, q.ending⟩
  | .error _ => p

theorem andThen_of_ok {p q : Plan κ δ} (h : p.ending = .ok ()) :
    p.andThen q = ⟨p.calls ++ q.calls, q.ending⟩ := by
  simp only [andThen, h]

theorem andThen_of_error {p q : Plan κ δ} {e : δ} (h : p.ending = .error e) : p.andThen q = p := by
  simp only [andThen, h]

def forEach (f : α → Plan κ δ) : List α → Plan κ δ
  | [] => done
  | x :: xs => (f x).andThen (forEach f xs)

theorem forEach_of_ok {f : α → Plan κ δ} {xs : List α} (h : ∀ x ∈ xs, (f x).ending = .ok ()) :
    forEach f xs = ⟨xs.flatMap fun x => (f x).calls, .ok ()⟩ := by
  induction xs with
  | nil => rfl
  | cons x xs ih =>
    rw [forEach, andThen_of_ok (h x (List.mem_cons_self ..)),
      ih fun y hy => h y (List.mem_cons_of_mem _ hy), List.flatMap_cons]

theorem andThen_ending_ok {p q : Plan κ δ} :
    (p.andThen q).ending = .ok () ↔ p.ending = .ok () ∧ q.ending = .ok () := by
  cases hp : p.ending with
  | ok u => simp [andThen_of_ok hp]
  | error e => simp [andThen_of_error hp, hp]

theorem forEach_ending_ok {f : α → Plan κ δ} {xs : List α} :
    (forEach f xs).ending = .ok () ↔ ∀ x ∈ xs, (f x).ending = .ok () := by
  induction xs with
  | nil => simp [forEach, done]
  | cons x xs ih => simp [forEach, andThen_ending_ok, ih]

def map (f : κ → κ') (p : Plan κ δ) : Plan κ' δ := ⟨p.calls.map f, p.ending⟩

/-- What a program with this plan leaves behind; `thrown` is what it throws where a call fails. -/
inductive Ran (C : Client σ κ ε) (thrown : κ → ε → δ) (p : Plan κ δ) (s : σ) :
    Sessions.Ran σ κ ε δ → Prop
  | finished : Accepts C s p.calls →
      Ran C thrown p s ⟨C.after s p.calls, fulfilled p.calls, p.ending⟩
  | stopped (before : List κ) (k : κ) (after : List κ) (e : ε) : p.calls = before ++ k :: after →
      Accepts C s before → (C.call (C.after s before) k).2 = .error e →
      Ran C thrown p s ⟨(C.call (C.after s before) k).1, fulfilled before ++ [(k, .error e)],
        .error (thrown k e)⟩

end Plan

/-- Whatever the client answers, the program does what is planned. -/
def Program.Follows (p : Program σ κ ε δ) (C : Client σ κ ε) (thrown : κ → ε → δ) (q : Plan κ δ) :
    Prop := ∀ s, q.Ran C thrown s (p s)

section

variable {thrown : κ → ε → δ} {p p' : Program σ κ ε δ} {q q' : Plan κ δ}

theorem follows_done : (Program.done : Program σ κ ε δ).Follows C thrown .done := fun _ =>
  .finished trivial

theorem follows_throw (e : δ) : (Program.throw e : Program σ κ ε δ).Follows C thrown (.throw e) :=
  fun _ => .finished trivial

theorem follows_call (k : κ) (handler : ε → δ) (h : thrown k = handler) :
    ((Program.call C k).catching fun e => .throw (handler e)).Follows C thrown (.call k) := by
  intro s
  subst h
  cases hk : (C.call s k).2 with
  | ok u =>
    rw [Program.catching_of_ok (p := .call C k) hk, Program.call, hk]
    exact .finished (p := .call k) ⟨hk, trivial⟩
  | error e =>
    rw [Program.catching_of_error (p := .call C k) hk, Program.call, hk]
    exact .stopped (p := .call k) [] k [] e rfl trivial hk

theorem Program.Follows.andThen (hp : p.Follows C thrown q) (hp' : p'.Follows C thrown q') :
    (p.andThen p').Follows C thrown (q.andThen q') := by
  intro s
  have hfirst := hp s
  generalize hr : p s = r at hfirst
  cases hfirst with
  | stopped before k after e hcalls hacc hk =>
    have hstop : (p.andThen p') s = p s := Program.andThen_of_error (by rw [hr])
    rw [hstop, hr]
    cases hq : q.ending with
    | ok u =>
      rw [Plan.andThen_of_ok hq]
      exact .stopped before k (after ++ q'.calls) e (by rw [hcalls, List.append_assoc]; rfl) hacc hk
    | error e' =>
      rw [Plan.andThen_of_error hq]
      exact .stopped before k after e hcalls hacc hk
  | finished hacc =>
    cases hq : q.ending with
    | error e =>
      have hstop : (p.andThen p') s = p s := Program.andThen_of_error (by rw [hr, hq])
      rw [hstop, hr, Plan.andThen_of_error hq]
      exact .finished hacc
    | ok u =>
      have hclient : (p s).client = C.after s q.calls := by rw [hr]
      have hnext : (p.andThen p') s = _ := Program.andThen_of_ok (by rw [hr, hq])
      have hsecond := hp' (C.after s q.calls)
      rw [hnext, hclient, hr, Plan.andThen_of_ok hq]
      generalize p' (C.after s q.calls) = r' at hsecond
      cases hsecond with
      | finished hacc' =>
        rw [← Client.after_append, ← fulfilled_append]
        exact .finished (p := ⟨q.calls ++ q'.calls, q'.ending⟩) (accepts_append.mpr ⟨hacc, hacc'⟩)
      | stopped before k after e hcalls hacc' hk =>
        rw [← Client.after_append] at hk ⊢
        rw [← List.append_assoc, ← fulfilled_append]
        exact .stopped (q.calls ++ before) k after e (by rw [hcalls, List.append_assoc])
          (accepts_append.mpr ⟨hacc, hacc'⟩) hk

theorem follows_forEach {f : α → Program σ κ ε δ} {g : α → Plan κ δ}
    (h : ∀ x, (f x).Follows C thrown (g x)) (xs : List α) :
    (Program.forEach f xs).Follows C thrown (.forEach g xs) := by
  induction xs with
  | nil => exact follows_done
  | cons x xs ih => exact (h x).andThen ih

/-- The program comes to a good end exactly if the plan does and the client fulfils its calls. -/
theorem Program.Follows.ok_iff (h : p.Follows C thrown q) (s : σ) :
    (p s).result = .ok () ↔ q.ending = .ok () ∧ Accepts C s q.calls := by
  have hran := h s
  generalize p s = r at hran ⊢
  cases hran with
  | finished hacc => exact ⟨fun hok => ⟨hok, hacc⟩, fun hok => hok.1⟩
  | stopped before k after e hcalls _ hk =>
    refine iff_of_false nofun ?_
    rintro ⟨-, hacc⟩
    rw [hcalls, accepts_append] at hacc
    exact nomatch hk.symm.trans hacc.2.1

end

/-! ### One client for several programs -/

def Client.through (C : Client σ κ' ε) (f : κ → κ') : Client σ κ ε := ⟨fun s k => C.call s (f k)⟩

def Program.through (p : Program σ κ ε δ) (f : κ → κ') : Program σ κ' ε δ := fun s =>
  ⟨(p s).client, (p s).trace.map (Prod.map f id), (p s).result⟩

section

variable {C : Client σ κ' ε} {f : κ → κ'}

theorem after_through (s : σ) (ks : List κ) : (C.through f).after s ks = C.after s (ks.map f) := by
  rw [Client.after, Client.after, List.foldl_map]
  rfl

theorem accepts_through {s : σ} {ks : List κ} :
    Accepts (C.through f) s ks ↔ Accepts C s (ks.map f) := by
  induction ks generalizing s with
  | nil => exact Iff.rfl
  | cons k ks ih => exact and_congr Iff.rfl ih

theorem fulfilled_through (ks : List κ) :
    (fulfilled ks : Trace κ ε).map (Prod.map f id) = fulfilled (ks.map f) := by
  simp [fulfilled]

theorem Program.Calls.through {p : Program σ κ ε δ} (h : p.Calls (C.through f)) :
    (p.through f).Calls C := by
  intro s
  have hanswers := h s
  simp only [Program.through]
  generalize (p s).trace = t at hanswers ⊢
  generalize (p s).client = s' at hanswers ⊢
  induction hanswers with
  | nil => exact .nil _
  | cons _ ih => exact .cons ih

theorem Program.Follows.through {thrown : κ → ε → δ} {thrown' : κ' → ε → δ}
    (hthrown : ∀ k, thrown' (f k) = thrown k) {p : Program σ κ ε δ} {q : Plan κ δ}
    (h : p.Follows (C.through f) thrown q) : (p.through f).Follows C thrown' (q.map f) := by
  intro s
  have hran := h s
  simp only [Program.through]
  generalize p s = r at hran ⊢
  cases hran with
  | finished hacc =>
    rw [after_through, fulfilled_through]
    exact .finished (p := q.map f) (accepts_through.mp hacc)
  | stopped before k after e hcalls hacc hk =>
    rw [after_through] at hk ⊢
    rw [List.map_append, fulfilled_through, ← hthrown k]
    exact .stopped (p := q.map f) (before.map f) (f k) (after.map f) e (by simp [Plan.map, hcalls])
      (accepts_through.mp hacc) hk

end

end Sessions
