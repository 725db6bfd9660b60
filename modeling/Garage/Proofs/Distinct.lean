import Mathlib.Data.Finset.Card
import Garage.Thing

/-!
# Distinct things

A hash set of things counts each value once and notes where it came first. Things with the same
fields are one value, so nothing of this depends on how things are hashed.

* `Thing.SameFields`: things of one kind whose fields agree (`Thing.sameFields_iff`).
* `FirstAt`: the places of a list at which a new value comes.
* `Census.Records`: what a census has noted of a list. One more thing keeps it
  (`Census.Records.add`), so it holds of every list (`records_census`).
-/

namespace Garage

/-! ## Equal things -/

/-- Things of one kind whose fields agree. -/
def Thing.SameFields : Thing → Thing → Prop
  | car a, car b => a.model = b.model ∧ a.engine.horsepower = b.engine.horsepower
  | engine a, engine b => a.horsepower = b.horsepower
  | report a, report b => a.model = b.model ∧ a.horsepower = b.horsepower
  | _, _ => False

theorem Thing.sameFields_iff {a b : Thing} : a.SameFields b ↔ a = b := by
  cases a with
  | car a =>
    cases b with
    | car b =>
      obtain ⟨model, ⟨horsepower⟩, hstock⟩ := a
      obtain ⟨model', ⟨horsepower'⟩, hstock'⟩ := b
      simp [SameFields]
    | engine b | report b => simp [SameFields]
  | engine a =>
    cases b with
    | engine b =>
      obtain ⟨horsepower⟩ := a
      obtain ⟨horsepower'⟩ := b
      simp [SameFields]
    | car b | report b => simp [SameFields]
  | report a =>
    cases b with
    | report b =>
      obtain ⟨model, horsepower⟩ := a
      obtain ⟨model', horsepower'⟩ := b
      simp [SameFields]
    | car b | engine b => simp [SameFields]

/-! ## New values -/

/-- A new value comes at this place of a list. -/
def FirstAt (things : List Thing) (i : Nat) : Prop :=
  ∃ thing, things[i]? = some thing ∧ thing ∉ things.take i

section FirstAt

variable {things : List Thing} {thing : Thing} {i : Nat}

theorem FirstAt.lt (h : FirstAt things i) : i < things.length := by
  obtain ⟨thing, hthing, -⟩ := h
  exact (List.getElem?_eq_some_iff.mp hthing).1

theorem firstAt_iff (hi : i < things.length) :
    FirstAt things i ↔ ∀ j (hj : j < i), ¬ things[j].SameFields things[i] := by
  simp only [FirstAt, List.getElem?_eq_getElem hi, Option.some.injEq, exists_eq_left',
    List.mem_take_iff_getElem, Thing.sameFields_iff]
  constructor
  · intro hnew j hj heq
    exact hnew ⟨j, by omega, heq⟩
  · rintro hnew ⟨j, hj, heq⟩
    exact hnew j (by omega) heq

theorem firstAt_concat_of_lt (hi : i < things.length) :
    FirstAt (things ++ [thing]) i ↔ FirstAt things i := by
  unfold FirstAt
  rw [List.getElem?_append_left hi, List.take_append_of_le_length (Nat.le_of_lt hi)]

theorem firstAt_concat_length : FirstAt (things ++ [thing]) things.length ↔ thing ∉ things := by
  simp [FirstAt]

theorem firstAt_concat :
    FirstAt (things ++ [thing]) i ↔ FirstAt things i ∨ i = things.length ∧ thing ∉ things := by
  constructor
  · intro h
    have hlt := h.lt
    rw [List.length_append, List.length_singleton] at hlt
    rcases Nat.lt_succ_iff_lt_or_eq.mp hlt with hi | rfl
    · exact Or.inl ((firstAt_concat_of_lt hi).mp h)
    · exact Or.inr ⟨rfl, firstAt_concat_length.mp h⟩
  · rintro (h | ⟨rfl, hnew⟩)
    · exact (firstAt_concat_of_lt h.lt).mpr h
    · exact firstAt_concat_length.mpr hnew

end FirstAt

/-! ## Census -/

namespace Census

section Add

variable (c : Census) {thing : Thing}

theorem mem_seen_add {t : Thing} : t ∈ (c.add thing).seen ↔ t ∈ c.seen ∨ t = thing := by
  rw [add, Std.HashSet.mem_insert, beq_iff_eq, or_comm, eq_comm]

theorem newest_add_of_mem (h : thing ∈ c.seen) : (c.add thing).newest = c.newest :=
  if_pos h

theorem newest_add_of_not_mem (h : thing ∉ c.seen) :
    (c.add thing).newest = c.items :: c.newest :=
  if_neg h

theorem count_add_of_mem (h : thing ∈ c.seen) : (c.add thing).count = c.count := by
  rw [count, count, Census.add, Std.HashSet.size_insert, if_pos h]

theorem count_add_of_not_mem (h : thing ∉ c.seen) : (c.add thing).count = c.count + 1 := by
  rw [count, count, Census.add, Std.HashSet.size_insert, if_neg h]

end Add

/-- What a census has noted of a list. -/
structure Records (c : Census) (things : List Thing) : Prop where
  mem_seen : ∀ thing, thing ∈ c.seen ↔ thing ∈ things
  items : c.items = things.length
  mem_newest : ∀ i, i ∈ c.newest ↔ FirstAt things i
  newest_sorted : c.newest.Pairwise (· > ·)
  length_newest : c.newest.length = c.count
  count : c.count = things.toFinset.card

theorem Records.nil : Records {} [] where
  mem_seen thing := by simp
  items := rfl
  mem_newest i := by simp [FirstAt]
  newest_sorted := .nil
  length_newest := rfl
  count := rfl

theorem Records.add {c : Census} {things : List Thing} (h : c.Records things) (thing : Thing) :
    (c.add thing).Records (things ++ [thing]) := by
  have hseen : ∀ t, t ∈ (c.add thing).seen ↔ t ∈ things ++ [thing] := by
    intro t
    rw [mem_seen_add, h.mem_seen, List.mem_append, List.mem_singleton]
  have hitems : (c.add thing).items = (things ++ [thing]).length := by
    rw [List.length_append, List.length_singleton, ← h.items]
    rfl
  have hfinset : (things ++ [thing]).toFinset = insert thing things.toFinset := by
    ext t
    simp
  by_cases hin : thing ∈ c.seen
  · -- the value is there: the thing is counted among the items only
    have hold := (h.mem_seen thing).mp hin
    have hnewest := c.newest_add_of_mem hin
    have hcount := c.count_add_of_mem hin
    refine ⟨hseen, hitems, ?_, ?_, ?_, ?_⟩
    · intro i
      rw [hnewest, h.mem_newest, firstAt_concat]
      exact ⟨Or.inl, fun hi => hi.resolve_right fun hnew => hnew.2 hold⟩
    · rw [hnewest]
      exact h.newest_sorted
    · rw [hnewest, h.length_newest, hcount]
    · rw [hcount, h.count, hfinset, Finset.insert_eq_of_mem (List.mem_toFinset.mpr hold)]
  · have hnew := mt (h.mem_seen thing).mpr hin
    have hnewest := c.newest_add_of_not_mem hin
    have hcount := c.count_add_of_not_mem hin
    rw [h.items] at hnewest
    refine ⟨hseen, hitems, ?_, ?_, ?_, ?_⟩
    · intro i
      rw [hnewest, List.mem_cons, h.mem_newest, firstAt_concat, or_comm,
        and_iff_left hnew]
    · rw [hnewest]
      exact .cons (fun i hi => ((h.mem_newest i).mp hi).lt) h.newest_sorted
    · rw [hnewest, List.length_cons, h.length_newest, hcount]
    · rw [hcount, h.count, hfinset, Finset.card_insert_of_notMem (mt List.mem_toFinset.mp hnew)]

end Census

theorem census_concat (things : List Thing) (thing : Thing) :
    census (things ++ [thing]) = (census things).add thing :=
  List.foldl_concat ..

theorem records_census (things : List Thing) : (census things).Records things := by
  induction things using List.reverseRecOn with
  | nil => exact Census.Records.nil
  | append_singleton things thing ih =>
    rw [census_concat]
    exact ih.add thing

theorem count_census_concat {things : List Thing} {thing : Thing} (h : thing ∉ things) :
    (census (things ++ [thing])).count = (census things).count + 1 := by
  rw [census_concat, Census.count_add_of_not_mem]
  exact mt ((records_census things).mem_seen thing).mp h

/-- `Census.first` lists, in increasing order, the indices of the things that have `SameFields` with
none before them, and `Census.count` is their number. It is the same for a permutation, and for the
list with things like its own behind it; a car and its report count two. -/
theorem census_distinct (things : List Thing) :
    (census things).first.Pairwise (· < ·) ∧
    (∀ i, i ∈ (census things).first ↔
      ∃ hi : i < things.length, ∀ j (hj : j < i), ¬ things[j].SameFields things[i]) ∧
    (census things).count = (census things).first.length ∧
    (census things).count = things.toFinset.card ∧
    (∀ things' : List Thing, things'.Perm things →
      (census things').count = (census things).count) ∧
    (∀ more : List Thing, (∀ thing ∈ more, ∃ known ∈ things, thing.SameFields known) →
      (census (things ++ more)).count = (census things).count) ∧
    (∀ car : Car, .car car ∉ things → .report car.report ∉ things →
      (census (things ++ [.car car, .report car.report])).count = (census things).count + 2) := by
  have h := records_census things
  have hcount : ∀ l, (census l).count = l.toFinset.card := fun l => (records_census l).count
  refine ⟨List.pairwise_reverse.mpr h.newest_sorted, ?_, ?_, h.count, ?_, ?_, ?_⟩
  · intro i
    rw [Census.first, List.mem_reverse, h.mem_newest]
    constructor
    · intro hfirst
      exact ⟨hfirst.lt, (firstAt_iff hfirst.lt).mp hfirst⟩
    · rintro ⟨hi, hnew⟩
      exact (firstAt_iff hi).mpr hnew
  · rw [Census.first, List.length_reverse, h.length_newest]
  · intro things' hperm
    rw [hcount, hcount, List.toFinset_eq_of_perm _ _ hperm]
  · intro more hmore
    have hsub : more.toFinset ⊆ things.toFinset := by
      intro thing hthing
      obtain ⟨known, hknown, hsame⟩ := hmore thing (List.mem_toFinset.mp hthing)
      rw [Thing.sameFields_iff.mp hsame]
      exact List.mem_toFinset.mpr hknown
    rw [hcount, hcount, List.toFinset_append, Finset.union_eq_left.mpr hsub]
  · intro car hcar hreport
    have hreport' : Thing.report car.report ∉ things ++ [.car car] := by
      simp [hreport]
    have hboth := count_census_concat hreport'
    rwa [count_census_concat hcar, List.append_assoc] at hboth

end Garage
