import Mathlib.Data.List.Basic
import Mathlib.Data.List.Induction
import Mathlib.Data.List.InsertIdx
import Mathlib.Tactic.Common

/-! # Loops that erase the element under their iterator

Vectors are lists addressed by position. Erasing shifts the later elements down
by one, so a forward loop keeps its position after an erase and a backward loop
steps down in every case. Both loops are stated with explicit positions, where a
position outside the vector is a fault; the equations below show that neither
faults and that each visits every element exactly once.
-/
namespace ClickMobileIP.EraseSweep
variable {σ α β α' β' : Type}

/-- `for (it = begin(); it != end();)`: a visit either writes the element back and
advances, or erases it and stays. -/
def sweepForward (visit : σ → α → Option (σ × Option α)) :
    ℕ → σ → List α → ℕ → Option (σ × List α)
  | fuel, s, v, i =>
    if i = v.length then some (s,v)
    else match fuel with
      | 0 => none
      | fuel + 1 =>
        match v[i]? with
        | none => none
        | some a =>
          match visit s a with
          | none => none
          | some (s, none) => sweepForward visit fuel s (v.eraseIdx i) i
          | some (s, some b) => sweepForward visit fuel s (v.set i b) (i + 1)

/-- The same visits as a recursion over the elements. -/
def sweep (visit : σ → α → Option (σ × Option α)) : σ → List α → Option (σ × List α)
  | s, [] => some (s,[])
  | s, a :: v =>
    match visit s a with
    | none => none
    | some (s, kept) => (sweep visit s v).map (fun r => (r.1,kept.toList ++ r.2))

/-- Fuel for one visit per remaining element is enough, whatever is erased. -/
theorem sweepForward_eq_sweep (visit : σ → α → Option (σ × Option α)) (s : σ) (front v : List α) :
    sweepForward visit v.length s (front ++ v) front.length =
      (sweep visit s v).map (fun r => (r.1,front ++ r.2)) := by
  induction v generalizing s front with
  | nil => simp [sweepForward,sweep]
  | cons a v ih =>
    have hne : front.length ≠ (front ++ a :: v).length := by simp
    have hat : (front ++ a :: v)[front.length]? = some a := by simp
    rw [List.length_cons,sweepForward,if_neg hne]
    simp only [hat,sweep]
    cases hv : visit s a with
    | none => rfl
    | some r =>
      obtain ⟨s',kept⟩ := r
      cases kept with
      | none =>
        have herase : (front ++ a :: v).eraseIdx front.length = front ++ v := by
          simp [List.eraseIdx_append_of_length_le]
        simp only [herase,ih s' front,Option.toList_none,List.nil_append]
        simp
      | some b =>
        have hset : (front ++ a :: v).set front.length b = (front ++ [b]) ++ v := by simp
        have hlen : front.length + 1 = (front ++ [b]).length := by simp
        simp only [hset,hlen,ih s' (front ++ [b]),Option.map_map]
        congr 1
        funext r
        simp

theorem sweepForward_eq (visit : σ → α → Option (σ × Option α)) (s : σ) (v : List α) :
    sweepForward visit v.length s v 0 = sweep visit s v := by
  simpa using sweepForward_eq_sweep visit s [] v

/-- A sweep that cannot fail and carries no state is a filter. -/
theorem sweep_eq_filterMap (f : α → Option α) (s : σ) (v : List α) :
    sweep (fun s a => some (s,f a)) s v = some (s,v.filterMap f) := by
  induction v with
  | nil => rfl
  | cons a v ih =>
    simp only [sweep,ih,Option.map_some]
    cases h : f a <;> simp [h]

/-- What a visit of a backward loop does with the element it stands on. -/
inductive Visit (α : Type)
  | keep (a : α)
  | erase
  | leave (a : α)

/-- `for (it = end() - 1; it != begin() - 1; it--)`. The counter is the distance
of the iterator from `begin() - 1`; the flag tells a finished loop from one that
was left in the middle. -/
def sweepBackward (visit : ℕ → α → Visit α × List β) :
    ℕ → List α → Option (List β × List α × Bool)
  | 0, v => some ([],v,true)
  | k + 1, v =>
    match v[k]? with
    | none => none
    | some a =>
      match visit k a with
      | (.keep b, out) => (sweepBackward visit k (v.set k b)).map (fun r => (out ++ r.1,r.2))
      | (.erase, out) => (sweepBackward visit k (v.eraseIdx k)).map (fun r => (out ++ r.1,r.2))
      | (.leave b, out) => some (out,v.set k b,false)

def Visit.map (f : α → α') : Visit α → Visit α'
  | .keep a => .keep (f a)
  | .erase => .erase
  | .leave a => .leave (f a)

theorem sweepBackward_map {visit : ℕ → α → Visit α × List β} {visit' : ℕ → α' → Visit α' × List β'}
    (f : α → α') (g : β → β')
    (hvisit : ∀ k a, visit' k (f a) = ((visit k a).1.map f,(visit k a).2.map g)) (k : ℕ) (v : List α) :
    sweepBackward visit' k (v.map f) =
      (sweepBackward visit k v).map (fun r => (r.1.map g,r.2.1.map f,r.2.2)) := by
  induction k generalizing v with
  | zero => simp [sweepBackward]
  | succ k ih =>
    rw [sweepBackward,sweepBackward,List.getElem?_map]
    cases v[k]? with
    | none => rfl
    | some a =>
      simp only [Option.map_some,hvisit]
      rcases visit k a with ⟨verdict,out⟩
      cases verdict with
      | keep b =>
        simp only [Visit.map,← List.map_set,ih,Option.map_map]
        congr 1
        funext r
        simp
      | erase =>
        simp only [Visit.map,List.eraseIdx_map,ih,Option.map_map]
        congr 1
        funext r
        simp
      | leave b => simp [Visit.map,List.map_set]

theorem sweepBackward_concat (visit : ℕ → α → Visit α × List β) (v back : List α) (a : α) :
    sweepBackward visit (v ++ [a]).length (v ++ [a] ++ back) =
      match visit v.length a with
      | (.keep b, out) => (sweepBackward visit v.length (v ++ b :: back)).map (fun r => (out ++ r.1,r.2))
      | (.erase, out) => (sweepBackward visit v.length (v ++ back)).map (fun r => (out ++ r.1,r.2))
      | (.leave b, out) => some (out,v ++ b :: back,false) := by
  have hat : (v ++ [a] ++ back)[v.length]? = some a := by simp
  have hset : ∀ b, (v ++ [a] ++ back).set v.length b = v ++ b :: back := fun b => by simp
  have hdrop : (v ++ [a] ++ back).eraseIdx v.length = v ++ back := by
    simp [List.eraseIdx_append_of_length_le]
  rw [List.length_append,List.length_singleton,sweepBackward]
  simp only [hat,hset,hdrop]

theorem sweepBackward_congr {visit visit' : ℕ → α → Visit α × List β} (v back : List α)
    (h : ∀ k a, v[k]? = some a → visit k a = visit' k a) :
    sweepBackward visit v.length (v ++ back) = sweepBackward visit' v.length (v ++ back) := by
  induction v using List.reverseRecOn generalizing back with
  | nil => rfl
  | append_singleton v a ih =>
    have hlast : visit v.length a = visit' v.length a := h v.length a (by simp)
    have hfront : ∀ k c, v[k]? = some c → visit k c = visit' k c := by
      intro k c hk
      apply h k c
      rw [List.getElem?_append_left (List.getElem?_eq_some_iff.mp hk).1]
      exact hk
    rw [sweepBackward_concat,sweepBackward_concat,hlast]
    rcases visit' v.length a with ⟨verdict,out⟩
    cases verdict with
    | keep b =>
      dsimp only
      rw [ih (b :: back) hfront]
    | erase =>
      dsimp only
      rw [ih back hfront]
    | leave b => rfl

/-- When no visit leaves the loop and visits ignore positions, the loop keeps the
survivors in their order and emits from the last element to the first. -/
theorem sweepBackward_append {visit : ℕ → α → Visit α × List β} {f : α → Option α}
    {g : α → List β} (hkeep : ∀ k a b, f a = some b → visit k a = (.keep b,g a))
    (herase : ∀ k a, f a = none → visit k a = (.erase,g a)) (v back : List α) :
    sweepBackward visit v.length (v ++ back) =
      some (v.reverse.flatMap g,v.filterMap f ++ back,true) := by
  induction v using List.reverseRecOn generalizing back with
  | nil => simp [sweepBackward]
  | append_singleton v a ih =>
    rw [sweepBackward_concat]
    cases hf : f a with
    | none =>
      simp only [herase _ a hf,ih back,Option.map_some]
      simp [hf]
    | some b =>
      simp only [hkeep _ a b hf,ih (b :: back),Option.map_some]
      simp [hf]

theorem sweepBackward_eq {visit : ℕ → α → Visit α × List β} {f : α → Option α}
    {g : α → List β} (hkeep : ∀ k a b, f a = some b → visit k a = (.keep b,g a))
    (herase : ∀ k a, f a = none → visit k a = (.erase,g a)) (v : List α) :
    sweepBackward visit v.length v = some (v.reverse.flatMap g,v.filterMap f,true) := by
  simpa using sweepBackward_append hkeep herase v []

/-- Whatever the visits decide, the loop never faults or grows the vector, and each
element it leaves behind was there before or was written back over one that was. -/
theorem sweepBackward_origin (visit : ℕ → α → Visit α × List β) (v back : List α) :
    ∃ out kept done, sweepBackward visit v.length (v ++ back) = some (out,kept ++ back,done) ∧
      kept.length ≤ v.length ∧ ∀ b ∈ kept, b ∈ v ∨ ∃ j, ∃ a ∈ v, (visit j a).1 = .keep b ∨ (visit j a).1 = .leave b := by
  induction v using List.reverseRecOn generalizing back with
  | nil => exact ⟨[],[],true,rfl,Nat.le_refl 0,by simp⟩
  | append_singleton v a ih =>
    have hold : ∀ b, (b ∈ v ∨ ∃ j, ∃ a ∈ v, (visit j a).1 = .keep b ∨ (visit j a).1 = .leave b) →
        b ∈ v ++ [a] ∨ ∃ j, ∃ c ∈ v ++ [a], (visit j c).1 = .keep b ∨ (visit j c).1 = .leave b := by
      rintro b (h | ⟨j,c,hc,h⟩)
      · exact Or.inl (List.mem_append_left _ h)
      · exact Or.inr ⟨j,c,List.mem_append_left _ hc,h⟩
    have hlast : a ∈ v ++ [a] := by simp
    rw [sweepBackward_concat]
    rcases hv : visit v.length a with ⟨verdict,out⟩
    cases verdict with
    | keep c =>
      obtain ⟨out',kept,done,hr,hlen,horigin⟩ := ih (c :: back)
      refine ⟨out ++ out',kept ++ [c],done,?_,by simp [hlen],?_⟩
      · simp only [hr,Option.map_some]
        simp
      · intro b hb
        rcases List.mem_append.mp hb with hb | hb
        · exact hold b (horigin b hb)
        · rw [List.mem_singleton.mp hb]
          exact Or.inr ⟨v.length,a,hlast,Or.inl (by rw [hv])⟩
    | erase =>
      obtain ⟨out',kept,done,hr,hlen,horigin⟩ := ih back
      refine ⟨out ++ out',kept,done,?_,Nat.le_trans hlen (by simp),fun b hb => hold b (horigin b hb)⟩
      simp only [hr,Option.map_some]
    | leave c =>
      refine ⟨out,v ++ [c],false,by simp,by simp,?_⟩
      intro b hb
      rcases List.mem_append.mp hb with hb | hb
      · exact hold b (Or.inl hb)
      · rw [List.mem_singleton.mp hb]
        exact Or.inr ⟨v.length,a,hlast,Or.inr (by rw [hv])⟩

theorem sweepBackward_emitted {visit : ℕ → α → Visit α × List β} {k : ℕ} {v : List α}
    {r : List β × List α × Bool} (h : sweepBackward visit k v = some r) :
    ∀ b ∈ r.1, ∃ j a, b ∈ (visit j a).2 := by
  induction k generalizing v r with
  | zero =>
    cases h
    exact fun b hb => absurd hb List.not_mem_nil
  | succ k ih =>
    rw [sweepBackward] at h
    cases hat : v[k]? with
    | none =>
      rw [hat] at h
      cases h
    | some a =>
      simp only [hat] at h
      have hlater : ∀ {v' : List α} {out : List β}, out = (visit k a).2 →
          (sweepBackward visit k v').map (fun r => (out ++ r.1,r.2)) = some r →
          ∀ b ∈ r.1, ∃ j a, b ∈ (visit j a).2 := by
        intro v' out hout hr b hb
        obtain ⟨r',hr',rfl⟩ := Option.map_eq_some_iff.mp hr
        rcases List.mem_append.mp hb with hb | hb
        · exact ⟨k,a,hout ▸ hb⟩
        · exact ih hr' b hb
      rcases hv : visit k a with ⟨verdict,out⟩
      have hout : out = (visit k a).2 := by rw [hv]
      cases verdict with
      | keep c => exact hlater hout (by simpa only [hv] using h)
      | erase => exact hlater hout (by simpa only [hv] using h)
      | leave c =>
        simp only [hv,Option.some.injEq] at h
        intro b hb
        rw [← h] at hb
        exact ⟨k,a,hout ▸ hb⟩

/-- The loop is left in the middle exactly when a visit to an element at its place says so:
the elements before the iterator have not moved. -/
theorem sweepBackward_done {visit : ℕ → α → Visit α × List β} (v back : List α)
    {r : List β × List α × Bool} (h : sweepBackward visit v.length (v ++ back) = some r) :
    r.2.2 = true ↔ ∀ k a b, v[k]? = some a → (visit k a).1 ≠ .leave b := by
  induction v using List.reverseRecOn generalizing back r with
  | nil =>
    cases h
    simp
  | append_singleton v a ih =>
    have hlast : (v ++ [a])[v.length]? = some a := by simp
    have hfront : ∀ {k : ℕ} {c : α}, (v ++ [a])[k]? = some c → v[k]? = some c ∨ k = v.length ∧ c = a := by
      intro k c hk
      rw [List.getElem?_append] at hk
      split at hk
      · exact Or.inl hk
      · obtain ⟨hzero,hc⟩ := List.getElem?_eq_some_iff.mp hk
        simp only [List.length_singleton] at hzero
        simp only [List.getElem_singleton] at hc
        exact Or.inr ⟨by omega,hc.symm⟩
    have hold : ∀ {k : ℕ} {c : α}, v[k]? = some c → (v ++ [a])[k]? = some c := by
      intro k c hk
      rw [List.getElem?_append_left (List.getElem?_eq_some_iff.mp hk).1]
      exact hk
    rw [sweepBackward_concat] at h
    -- the visit to `a` goes on, so the rest of the loop decides
    have hlater : ∀ {back' : List α} {out : List β}, (∀ b, (visit v.length a).1 ≠ .leave b) →
        (sweepBackward visit v.length (v ++ back')).map (fun r => (out ++ r.1,r.2)) = some r →
        (r.2.2 = true ↔ ∀ k c b, (v ++ [a])[k]? = some c → (visit k c).1 ≠ .leave b) := by
      intro back' out hgoes hr
      obtain ⟨r',hr',rfl⟩ := Option.map_eq_some_iff.mp hr
      rw [ih back' hr']
      constructor
      · intro hall k c b hk
        rcases hfront hk with hk | ⟨rfl,rfl⟩
        · exact hall k c b hk
        · exact hgoes b
      · exact fun hall k c b hk => hall k c b (hold hk)
    rcases hv : visit v.length a with ⟨verdict,out⟩
    cases verdict with
    | keep c =>
      simp only [hv] at h
      exact hlater (by simp [hv]) h
    | erase =>
      simp only [hv] at h
      exact hlater (by simp [hv]) h
    | leave c =>
      simp only [hv,Option.some.injEq] at h
      subst h
      simp only [Bool.false_eq_true,false_iff]
      exact fun hall => hall v.length a c hlast (by rw [hv])

end ClickMobileIP.EraseSweep
