import Interconnect.Lib.Pool
import Interconnect.Lib.Simulation
import Mathlib.Data.List.Perm.Basic

/-! Calls that contain calls of another pool. Where a step of a call leaves its part alone, starts
it, or is a step of it, the parts of the calls of a pool are at any time the calls of the other
pool, so that what holds in every run of that pool holds of them. -/

namespace Pools

open Runs

variable {Shared Call New Act Env Shared' Call' New' Act' Env' W : Type*}

/-- What happens to the part of a call, while the shared state that `B'` sees moves from `sh` to
`sh'`. A part is what `view` shows of a call of `B'`; `ok'` restricts its steps. -/
inductive PartMoves (B' : Behaviour Shared' Call' New' Act' Env') (view : Call' → W)
    (ok' : W → Act' → Prop) (sh sh' : Shared') : Option W → Option W → Prop
  | same (w : Option W) : sh' = sh → PartMoves B' view ok' sh sh' w w
  | starts (n : New') (w : W) : (∀ j, ∃ x, B'.start sh j n = some (sh', x) ∧ view x = w) →
      PartMoves B' view ok' sh sh' none (some w)
  | steps (a : Act') (w w' : W) : ok' w a →
      (∀ j x, view x = w → ∃ x', B'.step sh j x a = some (sh', x') ∧ view x' = w') →
      PartMoves B' view ok' sh sh' (some w) (some w')

/-- The calls of `B` have parts that are calls of `B'`. `ok` restricts the steps of `B`. -/
structure Projects (B : Behaviour Shared Call New Act Env)
    (B' : Behaviour Shared' Call' New' Act' Env') (f : Shared → Shared') (part : Call → Option W)
    (view : Call' → W) (ok : Call → Act → Prop) (ok' : W → Act' → Prop) : Prop where
  start : ∀ {sh i n sh' c}, B.start sh i n = some (sh', c) →
    PartMoves B' view ok' (f sh) (f sh') none (part c)
  step : ∀ {sh i c a sh' c'}, ok c a → B.step sh i c a = some (sh', c') →
    PartMoves B' view ok' (f sh) (f sh') (part c) (part c')
  env : ∀ {sh e sh'}, B.env sh e = some sh' →
    f sh' = f sh ∨ ∃ e', B'.env (f sh) e' = some (f sh')

def CallGuard (ok : Call → Act → Prop) (s : State Shared Call) (l : Label New Act Env) : Prop :=
  ∀ i a c, l = .act i a → s.calls[i]? = some c → ok c a

structure Mirrors (f : Shared → Shared') (part : Call → Option W) (view : Call' → W)
    (s : State Shared Call) (t : State Shared' Call') : Prop where
  shared : t.shared = f s.shared
  calls : (t.calls.map view).Perm (s.calls.filterMap part)

theorem mirrors_init (f : Shared → Shared') (part : Call → Option W) (view : Call' → W)
    (sh : Shared) : Mirrors f part view (State.init sh) (State.init (f sh)) :=
  ⟨rfl, .nil⟩

variable {f : Shared → Shared'} {part : Call → Option W} {view : Call' → W}
  {s s' : State Shared Call} {t : State Shared' Call'}

theorem Mirrors.exists_call (h : Mirrors f part view s t) {c : Call} {w : W} (hc : c ∈ s.calls)
    (hw : part c = some w) : ∃ x ∈ t.calls, view x = w := by
  have hmem : w ∈ s.calls.filterMap part := List.mem_filterMap.mpr ⟨c, hc, hw⟩
  exact List.mem_map.mp (h.calls.mem_iff.mpr hmem)

theorem Moves.perm {i : ℕ} {c c' : Call} (hm : Moves s s' i c c') :
    ∃ rest, s.calls.Perm (c :: rest) ∧ s'.calls.Perm (c' :: rest) := by
  obtain ⟨hlt, hget⟩ := List.getElem?_eq_some_iff.mp hm.before
  refine ⟨s.calls.eraseIdx i, ?_, ?_⟩
  · rw [← hget]
    exact (List.getElem_cons_eraseIdx_perm hlt).symm
  · rw [hm.calls_eq]
    exact List.set_perm_cons_eraseIdx hlt c'

variable {B : Behaviour Shared Call New Act Env} {B' : Behaviour Shared' Call' New' Act' Env'}
  {ok : Call → Act → Prop} {ok' : W → Act' → Prop}

/-- What a part does, the other pool can do: `rest` are the parts that stay as they are. -/
theorem PartMoves.matched {sh' : Shared'} {w w' : Option W} {rest : List W}
    (h : PartMoves B' view ok' t.shared sh' w w')
    (ht : (t.calls.map view).Perm (w.toList ++ rest)) :
    ∃ ls t', Run (Guarded (CallGuard fun x => ok' (view x)) (Steps (next B'))) t ls t' ∧
      t'.shared = sh' ∧ (t'.calls.map view).Perm (w'.toList ++ rest) := by
  cases h with
  | same _ hsh => exact ⟨[], t, .nil, hsh.symm, ht⟩
  | starts n w hstart =>
    obtain ⟨x, hx, rfl⟩ := hstart t.calls.length
    refine ⟨[.start n], ⟨sh', t.calls ++ [x]⟩, Run.single ⟨nofun, ?_⟩, rfl, ?_⟩
    · simp [Steps, next, hx]
    · rw [List.map_append]
      exact List.perm_append_comm.trans (ht.append_left _)
  | steps a w w' hok hstep =>
    have hmem : w ∈ t.calls.map view := ht.mem_iff.mpr (List.mem_cons_self ..)
    obtain ⟨x, hx, rfl⟩ := List.mem_map.mp hmem
    obtain ⟨j, hlt, hj⟩ := List.mem_iff_getElem.mp hx
    have hget : t.calls[j]? = some x := List.getElem?_eq_some_iff.mpr ⟨hlt, hj⟩
    obtain ⟨x', hx', rfl⟩ := hstep j x rfl
    refine ⟨[.act j a], ⟨sh', t.calls.set j x'⟩, Run.single ⟨?_, ?_⟩, rfl, ?_⟩
    · intro i b y hl hy
      cases hl
      cases hget.symm.trans hy
      exact hok
    · simp [Steps, next, hget, hx']
    · have hbefore := (List.getElem_cons_eraseIdx_perm hlt).map view
      have hafter := (List.set_perm_cons_eraseIdx hlt x').map view
      rw [hj, List.map_cons] at hbefore
      have hrest := (List.perm_cons _).mp (hbefore.trans ht)
      exact hafter.trans (hrest.cons _)

theorem filterMap_cons_toList (c : Call) (calls : List Call) :
    (c :: calls).filterMap part = (part c).toList ++ calls.filterMap part := by
  rw [List.filterMap_cons]
  cases part c <;> rfl

/-- The parts of the calls of a pool run as calls of the other pool. -/
theorem Projects.simulates (h : Projects B B' f part view ok ok') :
    Simulates (Guarded (CallGuard ok) (Steps (next B)))
      (Guarded (CallGuard fun x => ok' (view x)) (Steps (next B')))
      (Mirrors f part view) (fun _ => True) (fun _ => True) := by
  rintro s l s' t ⟨hsh, hcalls⟩ - ⟨hguard, hn⟩
  cases l with
  | start n =>
    obtain ⟨c, hc, hcalls'⟩ := next_start hn
    have hm := h.start hc
    rw [← hsh] at hm
    have ht : (t.calls.map view).Perm ((none : Option W).toList ++ s.calls.filterMap part) := hcalls
    obtain ⟨ls, t', hrun, hsh', ht'⟩ := hm.matched ht
    refine ⟨ls, t', fun _ _ => trivial, hrun, hsh', ht'.trans ?_⟩
    rw [hcalls', List.filterMap_append, filterMap_cons_toList]
    simpa using List.perm_append_comm
  | act i a =>
    obtain ⟨c, c', hm, hstep⟩ := next_act hn
    have hpart := h.step (hguard i a c rfl hm.before) hstep
    rw [← hsh] at hpart
    obtain ⟨rest, hbefore, hafter⟩ := hm.perm
    have ht := hcalls.trans (hbefore.filterMap part)
    rw [filterMap_cons_toList] at ht
    obtain ⟨ls, t', hrun, hsh', ht'⟩ := hpart.matched ht
    refine ⟨ls, t', fun _ _ => trivial, hrun, hsh', ht'.trans ?_⟩
    rw [← filterMap_cons_toList]
    exact (hafter.filterMap part).symm
  | env e =>
    obtain ⟨henv, hcalls'⟩ := next_env hn
    rw [← hcalls'] at hcalls
    rcases h.env henv with hsame | ⟨e', he'⟩
    · exact ⟨[], t, fun _ _ => trivial, .nil, hsh.trans hsame.symm, hcalls⟩
    · refine ⟨[.env e'], ⟨f s'.shared, t.calls⟩, fun _ _ => trivial, Run.single ⟨nofun, ?_⟩, rfl,
        hcalls⟩
      simp [Steps, next, hsh, he']

/-- What holds of every call of `B'`, and of the shared state, in all its runs holds of the parts of
the calls of `B`. -/
theorem Projects.transports (h : Projects B B' f part view ok ok') {P : Shared' → W → Prop}
    {sh : Shared}
    (hP : ∀ {ls t}, Run (Guarded (CallGuard fun x => ok' (view x)) (Steps (next B')))
      (State.init (f sh)) ls t → ∀ x ∈ t.calls, P t.shared (view x))
    {as : List (Label New Act Env)}
    (hr : Run (Guarded (CallGuard ok) (Steps (next B))) (State.init sh) as s) :
    ∀ c ∈ s.calls, ∀ w, part c = some w → P (f s.shared) w := by
  intro c hc w hw
  obtain ⟨ls, t, -, ht, hmirrors⟩ :=
    h.simulates.run (mirrors_init f part view sh) (fun _ _ => trivial) hr
  obtain ⟨x, hx, rfl⟩ := hmirrors.exists_call hc hw
  rw [← hmirrors.shared]
  exact hP ht x hx

end Pools
