/-!
# Steps in order

Steps taken one after the other, each from the state that the one before it left, and each with a
result of its own.

* `stepEach`: the results in order, and the state after the last step.
* `stepEach_append`: steps go on where others stopped.
* `getElem?_stepEach`, `stepEach_take_succ`: one step among others is the step alone, from the state
  after the steps before it.
* `Restriction`: on a part of the state, some steps are steps of their own and the others do
  nothing. The part then sees nothing of the others (`Restriction.stepEach_eq`).
-/

namespace Garage

variable {σ α β : Type} (step : σ → α → β × σ)

/-- The results of steps in order, and the state after the last. -/
def stepEach : List α → σ → List β × σ
  | [], s => ([], s)
  | a :: rest, s =>
    ((step s a).1 :: (stepEach rest (step s a).2).1, (stepEach rest (step s a).2).2)

theorem stepEach_append (l more : List α) (s : σ) :
    stepEach step (l ++ more) s =
      ((stepEach step l s).1 ++ (stepEach step more (stepEach step l s).2).1,
        (stepEach step more (stepEach step l s).2).2) := by
  induction l generalizing s with
  | nil => rfl
  | cons a rest ih => rw [List.cons_append, stepEach, ih, stepEach, List.cons_append]

theorem length_stepEach (l : List α) (s : σ) : (stepEach step l s).1.length = l.length := by
  induction l generalizing s with
  | nil => rfl
  | cons a rest ih => rw [stepEach, List.length_cons, ih, List.length_cons]

theorem getElem?_stepEach_append (before : List α) (a : α) (after : List α) (s : σ) :
    (stepEach step (before ++ a :: after) s).1[before.length]? =
      some (step (stepEach step before s).2 a).1 := by
  have hlen := length_stepEach step before s
  rw [stepEach_append, List.getElem?_append_right (Nat.le_of_eq hlen), hlen, Nat.sub_self]
  rfl

section

variable (l : List α) (s : σ) {k : Nat} (hk : k < l.length)
include hk

theorem getElem?_stepEach :
    (stepEach step l s).1[k]? = some (step (stepEach step (l.take k) s).2 l[k]).1 := by
  have hsplit : l.take k ++ l[k] :: l.drop (k + 1) = l := by
    rw [← List.drop_eq_getElem_cons hk, List.take_append_drop]
  have hstep := getElem?_stepEach_append step (l.take k) l[k] (l.drop (k + 1)) s
  rwa [hsplit, List.length_take_of_le (Nat.le_of_lt hk)] at hstep

theorem stepEach_take_succ :
    (stepEach step (l.take (k + 1)) s).2 = (step (stepEach step (l.take k) s).2 l[k]).2 := by
  rw [← List.take_append_getElem hk, stepEach_append]
  rfl

end

/-! ## A part of the state -/

/-- The results of the steps that are picked, in order. -/
def pickedResults {γ : Type} (pick : α → Option γ) (l : List α) (results : List β) : List β :=
  ((l.zip results).filter fun (a, _) => (pick a).isSome).map Prod.snd

/-- On a part of the state the steps that are picked are steps of their own, which depend on this
part only, and the others do nothing. -/
structure Restriction {τ γ δ : Type} (step : σ → α → β × σ) (part : σ → τ) (pick : α → Option γ)
    (partStep : τ → γ → δ × τ) (wrap : δ → β) : Prop where
  picked : ∀ s a c, pick a = some c →
    (step s a).1 = wrap (partStep (part s) c).1 ∧ part (step s a).2 = (partStep (part s) c).2
  other : ∀ s a, pick a = none → part (step s a).2 = part s

theorem Restriction.stepEach_eq {τ γ δ : Type} {step : σ → α → β × σ} {part : σ → τ}
    {pick : α → Option γ} {partStep : τ → γ → δ × τ} {wrap : δ → β}
    (h : Restriction step part pick partStep wrap) (l : List α) (s : σ) :
    pickedResults pick l (stepEach step l s).1 =
        (stepEach partStep (l.filterMap pick) (part s)).1.map wrap ∧
      part (stepEach step l s).2 = (stepEach partStep (l.filterMap pick) (part s)).2 := by
  induction l generalizing s with
  | nil => exact ⟨rfl, rfl⟩
  | cons a rest ih =>
    obtain ⟨hresults, hpart⟩ := ih (step s a).2
    rw [stepEach, pickedResults, List.zip_cons_cons]
    cases hpick : pick a with
    | none =>
      -- the step drops out on both sides
      rw [List.filterMap_cons_none hpick, List.filter_cons_of_neg (by simp [hpick]),
        ← h.other s a hpick]
      exact ⟨hresults, hpart⟩
    | some c =>
      obtain ⟨hresult, hafter⟩ := h.picked s a c hpick
      rw [List.filterMap_cons_some hpick, List.filter_cons_of_pos (by simp [hpick]), stepEach,
        ← hafter, List.map_cons, List.map_cons, ← hresult, ← hresults]
      exact ⟨rfl, hpart⟩

end Garage
