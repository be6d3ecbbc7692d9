import ClickMobileIP.Agent.ForeignLists

/-! # How long a visitor stays

The timer tests a visitor before it counts it down, so a visitor with `L` seconds is there
for `L` ticks and leaves in the next one. A tick that cannot make the packet for a request
that timed out returns before it comes to the visitors: `completed` counts the ticks of a
run that did come to them.
-/
namespace ClickMobileIP.ForeignAgent
open EventRun EraseSweep
open ForeignAgentReplyProcess (sameIds settled visitorItem)
open ForeignAgentReqProcess (pendingVisit reportPending visitorVisit)

section Timer
variable {s t : AgentBase} {alloc : ℕ → Bool} {out : List Emission}

/-- A timeout reply is due for a pending request and its packet cannot be made. -/
def cutShort (alloc : ℕ → Bool) (s : AgentBase) : Bool :=
  s.registrationReq.zipIdx.any (fun x => !(reportPending x.1).isEmpty && !alloc x.2)

theorem cutShort_iff : cutShort alloc s = true ↔
    ∃ (k : ℕ) (it : ListItem), s.registrationReq[k]? = some it ∧ reportPending it ≠ [] ∧ alloc k = false := by
  simp only [cutShort,List.any_eq_true,Prod.exists,List.mem_zipIdx_iff_getElem?,Bool.and_eq_true,
    Bool.not_eq_true',List.isEmpty_eq_false_iff]
  exact exists_comm

theorem pendingVisit_leaves {k : ℕ} {it : ListItem} :
    (∃ b, (pendingVisit alloc k it).1 = .leave b) ↔ reportPending it ≠ [] ∧ alloc k = false := by
  unfold pendingVisit reportPending
  dsimp only
  split_ifs with hzero hwait halloc hdue hdue hdue
  all_goals simp_all

theorem sweep_done_iff {r : List Emission × List ListItem × Bool}
    (h : sweepBackward (pendingVisit alloc) s.registrationReq.length s.registrationReq = some r) :
    r.2.2 = true ↔ cutShort alloc s = false := by
  have hdone := sweepBackward_done s.registrationReq [] (by rw [List.append_nil]; exact h)
  rw [hdone,← Bool.not_eq_true,cutShort_iff,not_exists]
  constructor
  · rintro hall k ⟨it,hit,hdue⟩
    obtain ⟨b,hb⟩ := pendingVisit_leaves.mpr hdue
    exact hall k it b hit hb
  · intro hall k it b hit hb
    exact hall k ⟨it,hit,pendingVisit_leaves.mp ⟨b,hb⟩⟩

/-- A tick counts the visitors down exactly when it is not cut short. -/
theorem visitorMap_tick (hstep : step s (.runTimer alloc) = some (t,out)) :
    t.visitorMap = if cutShort alloc s then s.visitorMap else s.visitorMap.filterMap visitorVisit := by
  obtain ⟨tick,htick,hbase⟩ := Option.map_eq_some_iff.mp hstep
  have ht : t = tick.base := (congrArg Prod.fst hbase).symm
  subst ht
  rw [ForeignAgentReqProcess.runTimer_sweep] at htick
  obtain ⟨r,hsweep,rfl⟩ := Option.map_eq_some_iff.mp htick
  have hdone := sweep_done_iff hsweep
  cases hcut : cutShort alloc s with
  | false => exact if_pos (hdone.mpr hcut)
  | true => exact if_neg (fun h => Bool.false_ne_true ((hdone.mp h).symm.trans hcut))

end Timer

section Countdown
variable {s t : AgentBase} {e : Event} {out : List Emission} {node : IPAddress} {v : ListItem} {L : ℕ}

/-- An accepting reply for the node. -/
def Event.Concerns (node : IPAddress) : Event → Prop
  | .reply _ p => p.IsReply ∧ (p.reply.code = 0 ∨ p.reply.code = 1) ∧ p.reply.homeAddr = node
  | _ => False

/-- An accepting reply for another node whose ids find a pending request of this one first. -/
def Event.Mistaken (s : AgentBase) (node : IPAddress) : Event → Prop
  | .reply _ p => p.IsReply ∧ (p.reply.code = 0 ∨ p.reply.code = 1) ∧ p.reply.homeAddr ≠ node ∧
      (s.registrationReq.find? (sameIds p.reply)).any (fun it => it.ipSrc == node) = true
  | _ => False

/-- The event is a tick that comes to the visitors. -/
def Event.completes (s : AgentBase) : Event → Bool
  | .runTimer alloc => !cutShort alloc s
  | _ => false

def visitorsOf (node : IPAddress) (s : AgentBase) : List ListItem :=
  s.visitorMap.filter (fun v => v.ipSrc == node)

theorem inMapNode_iff_visitorsOf : s.inMapNode node = true ↔ visitorsOf node s ≠ [] := by
  simp [AgentBase.inMapNode_iff,visitorsOf,List.filter_eq_nil_iff]

theorem filter_filterMap_visitorVisit (visitors : List ListItem) (node : IPAddress) :
    (visitors.filterMap visitorVisit).filter (fun v => v.ipSrc == node) =
      (visitors.filter (fun v => v.ipSrc == node)).filterMap visitorVisit := by
  induction visitors with
  | nil => rfl
  | cons v rest ih =>
    cases hv : visitorVisit v with
    | none =>
      by_cases hnode : v.ipSrc = node
      · simp [hv,hnode,ih]
      · simp [hv,hnode,ih]
    | some w =>
      have hsrc := ipSrc_visitorVisit hv
      by_cases hnode : v.ipSrc = node
      · simp [hv,hnode,hsrc,ih]
      · simp [hv,hnode,hsrc,ih]

theorem visitorsOf_settled {uninit : UInt16} {p : Packet} (hp : p.IsReply)
    (hconcerns : ¬(Event.reply uninit p).Concerns node) (hmistaken : ¬(Event.reply uninit p).Mistaken s node) :
    visitorsOf node (settled uninit s p.reply) = visitorsOf node s := by
  unfold visitorsOf settled
  dsimp only
  by_cases hcode : p.reply.code = 0 ∨ p.reply.code = 1
  · rw [if_pos hcode]
    cases hfind : s.registrationReq.find? (sameIds p.reply) with
    | none => rfl
    | some it =>
      have hother : it.ipSrc ≠ node := by
        intro hnode
        by_cases haddr : p.reply.homeAddr = node
        · exact hconcerns ⟨hp,hcode,haddr⟩
        · exact hmistaken ⟨hp,hcode,haddr,by simp [hfind,hnode]⟩
      have hitem : ((visitorItem uninit it p.reply).ipSrc == node) = false := beq_eq_false_iff_ne.mpr hother
      have hkept : ∀ w ∈ s.visitorMap, (w.ipSrc == node && decide (w.ipSrc ≠ it.ipSrc)) = (w.ipSrc == node) := by
        intro w _
        by_cases hw : w.ipSrc = node
        · simp [hw,hother.symm]
        · simp [hw]
      simp only [List.filter_append,List.filter_filter,List.filter_singleton,hitem,cond_false,List.append_nil]
      exact List.filter_congr hkept
  · rw [if_neg hcode]

theorem visitorsOf_step (hconcerns : ¬e.Concerns node) (hmistaken : ¬e.Mistaken s node)
    (hstep : step s e = some (t,out)) :
    visitorsOf node t =
      if e.completes s then (visitorsOf node s).filterMap visitorVisit else visitorsOf node s := by
  cases e with
  | request alloc p =>
    cases stepped_of_step hstep with
    | request _ _ _ _ hpushed => cases hpushed <;> rfl
  | reply uninit p =>
    cases stepped_of_step hstep with
    | ignored _ _ _ => rfl
    | reply _ _ hp => exact visitorsOf_settled hp hconcerns hmistaken
  | runTimer alloc =>
    have hvisitors := visitorMap_tick hstep
    by_cases hcut : cutShort alloc s = true
    · rw [if_pos hcut] at hvisitors
      simp [visitorsOf,hvisitors,Event.completes,hcut]
    · rw [if_neg hcut] at hvisitors
      simp only [visitorsOf,hvisitors,Event.completes,hcut,Bool.not_false,↓reduceIte]
      exact filter_filterMap_visitorVisit s.visitorMap node

def agedVisitor (n : ℕ) (v : ListItem) : ListItem := { v with lifetimeRem := aged n v.lifetimeRem }

/-- What is left of the visitor after `n` ticks that came to it. -/
def Remains (node : IPAddress) (v : ListItem) (n : ℕ) (s : AgentBase) : Prop :=
  visitorsOf node s = if n ≤ seconds v.lifetimeRem then [agedVisitor n v] else []

theorem visitorVisit_agedVisitor {n : ℕ} (hL : seconds v.lifetimeRem ≤ 255) (hn : n ≤ seconds v.lifetimeRem) :
    visitorVisit (agedVisitor n v) = if n = seconds v.lifetimeRem then none else some (agedVisitor (n + 1) v) := by
  have hzero : aged n v.lifetimeRem = 0 ↔ n = seconds v.lifetimeRem := by
    rw [← htons_ntohs v.lifetimeRem,aged_htons_eq_zero]
    unfold seconds at hL hn ⊢
    simp only [htons_ntohs]
    omega
  unfold visitorVisit agedVisitor
  simp only [hzero,aged_succ]

theorem remains_step {n : ℕ} (hL : seconds v.lifetimeRem ≤ 255) (hs : Remains node v n s)
    (hconcerns : ¬e.Concerns node) (hmistaken : ¬e.Mistaken s node) (hstep : step s e = some (t,out)) :
    Remains node v (n + if e.completes s then 1 else 0) t := by
  have hvisitors := visitorsOf_step hconcerns hmistaken hstep
  unfold Remains at hs ⊢
  rw [hvisitors,hs]
  cases hdone : e.completes s with
  | false => simp only [Bool.false_eq_true,↓reduceIte,Nat.add_zero]
  | true =>
    simp only [↓reduceIte]
    by_cases hn : n ≤ seconds v.lifetimeRem
    · rw [if_pos hn,List.filterMap_cons,visitorVisit_agedVisitor hL hn]
      by_cases hlast : n = seconds v.lifetimeRem
      · rw [if_pos hlast,if_neg (by omega)]
        rfl
      · rw [if_neg hlast,if_pos (by omega)]
        rfl
    · rw [if_neg hn,if_neg (by omega)]
      rfl

theorem inMapNode_of_remains {n : ℕ} (hs : Remains node v n s) :
    s.inMapNode node = true ↔ n ≤ seconds v.lifetimeRem := by
  rw [inMapNode_iff_visitorsOf,hs]
  split_ifs with hn <;> simp [hn]

end Countdown

section Runs
variable {s t : AgentBase} {es : List Event} {out : List Emission} {node : IPAddress} {v : ListItem} {L : ℕ}

def completed (s : AgentBase) : List Event → ℕ
  | [] => 0
  | e :: es => (if e.completes s then 1 else 0) +
      match step s e with
      | none => 0
      | some (t,_) => completed t es

/-- No reply of the run for another node is taken for the answer to this one. -/
def NoMistake (node : IPAddress) (s : AgentBase) (es : List Event) : Prop :=
  ∀ pre e post u out, es = pre ++ e :: post → run step s pre = some (u,out) → ¬e.Mistaken u node

theorem noMistake_cons {e : Event} (h : NoMistake node s (e :: es)) :
    ¬e.Mistaken s node ∧ ∀ t out, step s e = some (t,out) → NoMistake node t es := by
  refine ⟨h [] e es s [] rfl rfl,?_⟩
  rintro t out hstep pre e' post u out' rfl hrun
  exact h (e :: pre) e' post u (out ++ out') rfl (run_cons_eq_some.mpr ⟨t,out,out',hstep,hrun,rfl⟩)

theorem noMistake_append {fs : List Event} (h : NoMistake node s (es ++ fs)) : NoMistake node s es := by
  rintro pre e post u out rfl hrun
  exact h pre e (post ++ fs) u out (by simp) hrun

theorem completed_cons {e : Event} (hstep : step s e = some (t,out)) :
    completed s (e :: es) = (if e.completes s then 1 else 0) + completed t es := by
  simp only [completed,hstep]

theorem completed_append {fs : List Event} (hrun : run step s es = some (t,out)) :
    completed s (es ++ fs) = completed s es + completed t fs := by
  induction es generalizing s out with
  | nil =>
    cases hrun
    simp [completed]
  | cons e es ih =>
    obtain ⟨u,o,o',hstep,hrest,rfl⟩ := run_cons_eq_some.mp hrun
    rw [List.cons_append,completed_cons hstep,completed_cons hstep,ih hrest,Nat.add_assoc]

theorem completed_le_ticks (s : AgentBase) (es : List Event) : completed s es ≤ ticks es := by
  induction es generalizing s with
  | nil => exact Nat.le_refl 0
  | cons e es ih =>
    obtain ⟨t,out,hstep⟩ := step_isSome s e
    have hone : (if e.completes s then 1 else 0) ≤ if e.isTick then 1 else 0 := by
      cases e with
      | runTimer alloc => by_cases hcut : cutShort alloc s = true <;> simp [Event.completes,Event.isTick,hcut]
      | request _ _ => exact Nat.le_refl 0
      | reply _ _ => exact Nat.le_refl 0
    have hrest := ih t
    rw [completed_cons hstep,ticks_cons]
    omega

theorem remains_run {n : ℕ} (hL : seconds v.lifetimeRem ≤ 255) (hs : Remains node v n s)
    (hconcerns : ∀ e ∈ es, ¬e.Concerns node) (hmistake : NoMistake node s es)
    (hrun : run step s es = some (t,out)) : Remains node v (n + completed s es) t := by
  induction es generalizing s n out with
  | nil =>
    cases hrun
    exact hs
  | cons e es ih =>
    obtain ⟨u,o,o',hstep,hrest,rfl⟩ := run_cons_eq_some.mp hrun
    obtain ⟨hother,hothers⟩ := List.forall_mem_cons.mp hconcerns
    obtain ⟨hfirst,hlater⟩ := noMistake_cons hmistake
    have hu := ih (remains_step hL hs hother hfirst hstep) hothers (hlater u o hstep) hrest
    rw [completed_cons hstep,← Nat.add_assoc]
    exact hu

def RunsThrough (L : ℕ) (s : AgentBase) (es : List Event) : Prop :=
  ∀ pre alloc post u out, es = pre ++ .runTimer alloc :: post → run step s pre = some (u,out) →
    ticks pre ≤ L → cutShort alloc u = false

theorem ticks_append (es fs : List Event) : ticks (es ++ fs) = ticks es + ticks fs := List.countP_append

theorem completed_of_runsThrough {fs : List Event} (h : RunsThrough L s (es ++ fs)) :
    min (ticks es) (L + 1) ≤ completed s es := by
  induction es using List.reverseRecOn generalizing fs with
  | nil => exact Nat.min_le_left 0 _
  | append_singleton es e ih =>
    have hfront : RunsThrough L s (es ++ (e :: fs)) := by
      rw [List.append_cons]
      exact h
    have hbefore := ih hfront
    obtain ⟨u,out,hrun⟩ := run_isSome s es
    obtain ⟨t,out',hstep⟩ := step_isSome u e
    rw [completed_append hrun,ticks_append,completed_cons hstep]
    cases e with
    | request _ _ =>
      change min (ticks es + 0) (L + 1) ≤ _
      omega
    | reply _ _ =>
      change min (ticks es + 0) (L + 1) ≤ _
      omega
    | runTimer alloc =>
      change min (ticks es + 1) (L + 1) ≤ _
      by_cases hearly : ticks es ≤ L
      · have hdone : cutShort alloc u = false := hfront es alloc fs u out rfl hrun hearly
        simp only [Event.completes,hdone,Bool.not_false,↓reduceIte]
        omega
      · omega

theorem exists_ticks_eq {k : ℕ} (h : k ≤ ticks es) : ∃ pre post, es = pre ++ post ∧ ticks pre = k := by
  induction es generalizing k with
  | nil => exact ⟨[],[],rfl,(Nat.le_zero.mp h).symm⟩
  | cons e es ih =>
    cases k with
    | zero => exact ⟨[],e :: es,rfl,rfl⟩
    | succ k =>
      rw [ticks_cons] at h
      cases htick : e.isTick with
      | true =>
        simp only [htick,↓reduceIte,Nat.add_le_add_iff_right] at h
        obtain ⟨pre,post,rfl,hpre⟩ := ih h
        refine ⟨e :: pre,post,rfl,?_⟩
        rw [ticks_cons,htick,hpre]
        rfl
      | false =>
        simp only [htick,Bool.false_eq_true,↓reduceIte,Nat.add_zero] at h
        obtain ⟨pre,post,rfl,hpre⟩ := ih h
        refine ⟨e :: pre,post,rfl,?_⟩
        rw [ticks_cons,htick,hpre]
        rfl

theorem exists_late {pre post : List Event} {alloc : ℕ → Bool} {u : AgentBase}
    (hlong : L < ticks (pre ++ .runTimer alloc :: post)) (hrun : run step s pre = some (u,out))
    (hearly : ticks pre ≤ L) (hcut : cutShort alloc u = true) :
    ∃ mid rest, post = mid ++ rest ∧ ticks (pre ++ .runTimer alloc :: mid) = L + 1 ∧
      completed s (pre ++ .runTimer alloc :: mid) ≤ L := by
  have htick : ∀ fs : List Event, ticks (.runTimer alloc :: fs) = ticks fs + 1 := fun fs => ticks_cons _ _
  have hmore : L - ticks pre ≤ ticks post := by
    rw [ticks_append,htick] at hlong
    omega
  obtain ⟨mid,rest,rfl,hmid⟩ := exists_ticks_eq hmore
  refine ⟨mid,rest,rfl,?_,?_⟩
  · rw [ticks_append,htick]
    omega
  · obtain ⟨t,out',hstep⟩ := step_isSome u (.runTimer alloc)
    have hpre := completed_le_ticks s pre
    have hrest := completed_le_ticks t mid
    rw [completed_append hrun,completed_cons hstep]
    simp only [Event.completes,hcut,Bool.not_true,Bool.false_eq_true,↓reduceIte]
    omega

end Runs

section Expiry
variable {s t : AgentBase} {p : Packet} {it : ListItem} {es : List Event} {out : List Emission}

/-- At every moment of the run the node is a visitor exactly while no more than `L` ticks
have passed. -/
def ExpiresOnTime (node : IPAddress) (L : ℕ) (s : AgentBase) (es : List Event) : Prop :=
  ∀ pre post, es = pre ++ post →
    ∃ t out, run step s pre = some (t,out) ∧ (t.inMapNode node = true ↔ ticks pre ≤ L)

theorem remains_accepting {uninit : UInt16} (hp : p.IsReply) (hcode : p.reply.code = 0 ∨ p.reply.code = 1)
    (hit : s.registrationReq.find? (sameIds p.reply) = some it) (hstep : step s (.reply uninit p) = some (t,out)) :
    Remains it.ipSrc (visitorItem uninit it p.reply) 0 t := by
  obtain ⟨t',out',hstep',hvisitors⟩ := step_accepting uninit hp hcode hit
  rw [hstep] at hstep'
  cases hstep'
  have hgone : ∀ w ∈ s.visitorMap, (w.ipSrc == it.ipSrc && decide (w.ipSrc ≠ it.ipSrc)) = false := by simp
  have hitem : ((visitorItem uninit it p.reply).ipSrc == it.ipSrc) = true := beq_self_eq_true it.ipSrc
  unfold Remains visitorsOf
  rw [hvisitors,if_pos (Nat.zero_le _),List.filter_append,List.filter_filter,List.filter_congr hgone,
    List.filter_singleton,hitem]
  simp [agedVisitor]

/-- For a visitor with up to 255 seconds, in every run with no further accepting reply for
its node: if no reply for another node is taken for its answer, then it leaves on time exactly
when the run is too short to tell or none of the first `L + 1` ticks is cut short by a packet
that cannot be made. -/
theorem expires_on_time_iff {uninit : UInt16} (hp : p.IsReply) (hcode : p.reply.code = 0 ∨ p.reply.code = 1)
    (hit : s.registrationReq.find? (sameIds p.reply) = some it)
    (hL : seconds (visitorItem uninit it p.reply).lifetimeRem ≤ 255)
    (hstep : step s (.reply uninit p) = some (t,out)) (hes : ∀ e ∈ es, ¬e.Concerns it.ipSrc) :
    NoMistake it.ipSrc t es →
      (ExpiresOnTime it.ipSrc (seconds (visitorItem uninit it p.reply).lifetimeRem) t es ↔
        (seconds (visitorItem uninit it p.reply).lifetimeRem < ticks es →
          RunsThrough (seconds (visitorItem uninit it p.reply).lifetimeRem) t es)) := by
  intro hmistake
  have hstart := remains_accepting hp hcode hit hstep
  generalize visitorItem uninit it p.reply = v at hL hstart ⊢
  -- whatever is cut short, the node is there while `completed` is at most its lifetime
  have hcount : ∀ {pre post u out}, es = pre ++ post → run step t pre = some (u,out) →
      (u.inMapNode it.ipSrc = true ↔ completed t pre ≤ seconds v.lifetimeRem) := by
    rintro pre post u out rfl hrun
    have hothers : ∀ e ∈ pre, ¬e.Concerns it.ipSrc := fun e he => hes e (List.mem_append_left _ he)
    have hu := remains_run hL hstart hothers (noMistake_append hmistake) hrun
    rw [inMapNode_of_remains hu,Nat.zero_add]
  constructor
  · intro htime hlong pre alloc post u out hsplit hrun hearly
    by_contra hcut
    subst hsplit
    obtain ⟨mid,rest,rfl,hticks,hlate⟩ := exists_late hlong hrun hearly (by simpa using hcut)
    obtain ⟨w,out',hrun',hiff⟩ := htime (pre ++ .runTimer alloc :: mid) rest (by simp)
    have hthere := (@hcount _ rest _ _ (by simp) hrun').mpr hlate
    have := hiff.mp hthere
    omega
  · rintro hcond pre post rfl
    obtain ⟨u,out,hrun⟩ := run_isSome t pre
    refine ⟨u,out,hrun,(hcount rfl hrun).trans ?_⟩
    have hle := completed_le_ticks t pre
    by_cases hlong : seconds v.lifetimeRem < ticks pre
    · have hall : RunsThrough (seconds v.lifetimeRem) t (pre ++ post) := by
        apply hcond
        rw [ticks_append]
        omega
      have hmin := completed_of_runsThrough hall
      omega
    · omega

theorem noMistake_of_no_reply (node : IPAddress) (s : AgentBase)
    (hes : ∀ e ∈ es, ∀ uninit p, e ≠ .reply uninit p) : NoMistake node s es := by
  rintro pre e post u out rfl - hmistaken
  cases e with
  | reply uninit p => exact hes (.reply uninit p) (by simp) uninit p rfl
  | request _ _ => exact hmistaken
  | runTimer _ => exact hmistaken

theorem not_concerns_of_no_reply (node : IPAddress) (hes : ∀ e ∈ es, ∀ uninit p, e ≠ .reply uninit p) :
    ∀ e ∈ es, ¬e.Concerns node := by
  intro e he hconcerns
  cases e with
  | reply uninit p => exact hes (.reply uninit p) he uninit p rfl
  | request _ _ => exact hconcerns
  | runTimer _ => exact hconcerns

theorem expires_on_time_sample :
    ∃ s t out out', run step (AgentBase.configure 1 2 25) [.request true (visitRequest 25 9 5 3 4)] = some (s,out) ∧
      step s (.reply 0 (visitReply 9 5 3 4)) = some (t,out') ∧
      ExpiresOnTime 9 25 t (List.replicate 26 (.runTimer (fun _ => true))) := by
  have hfind : (run step (AgentBase.configure 1 2 25) [.request true (visitRequest 25 9 5 3 4)]).any
      (fun r => decide (r.1.registrationReq.find? (sameIds (visitReply 9 5 3 4).reply) =
        some (ForeignAgentReqProcess.pendingItem (visitRequest 25 9 5 3 4)))) = true := by decide +kernel
  obtain ⟨s,out,hrun⟩ := run_isSome (AgentBase.configure 1 2 25) [.request true (visitRequest 25 9 5 3 4)]
  rw [hrun] at hfind
  obtain ⟨t,out',hstep⟩ := step_isSome s (.reply 0 (visitReply 9 5 3 4))
  have hticks : ∀ e ∈ List.replicate 26 (Event.runTimer (fun _ => true)), ∀ uninit p, e ≠ .reply uninit p := by
    intro e he uninit p heq
    rw [(List.mem_replicate.mp he).2] at heq
    cases heq
  have hiff := expires_on_time_iff (by decide +kernel) (by decide +kernel) (of_decide_eq_true hfind)
    (by decide +kernel) hstep (not_concerns_of_no_reply _ hticks) (noMistake_of_no_reply _ t hticks)
  refine ⟨s,t,out,out',hrun,hstep,hiff.mpr ?_⟩
  intro _ pre alloc post u out hsplit _ _
  have hmem : Event.runTimer alloc ∈ List.replicate 26 (Event.runTimer (fun _ => true)) := by simp [hsplit]
  cases (List.mem_replicate.mp hmem).2
  simp [cutShort]

def stalled : List Event :=
  List.replicate 19 (.runTimer (fun _ => true)) ++ .request true (visitRequest 25 10 6 7 8) ::
    List.replicate 6 (.runTimer (fun _ => true)) ++ [.runTimer (fun _ => false)]

/-- The visitor asks again with the ids that the request of node 10 has too, and the answer to
node 10 comes first. -/
def confused : List Event :=
  List.replicate 10 (.runTimer (fun _ => true)) ++
    [.request true (visitRequest 25 9 5 7 8),.request true (visitRequest 25 10 6 7 8),
      .reply 0 (visitReply 10 6 7 8)] ++ List.replicate 16 (.runTimer (fun _ => true))

theorem confused_concerns : ∀ e ∈ confused, ¬e.Concerns 9 := by
  have haddr : (visitReply 10 6 7 8).reply.homeAddr = 10 := by decide +kernel
  intro e he
  simp only [confused,List.mem_append,List.mem_replicate,List.mem_cons,List.not_mem_nil,or_false] at he
  rcases he with (⟨-,rfl⟩ | rfl | rfl | rfl) | ⟨-,rfl⟩
  · exact id
  · exact id
  · exact id
  · rintro ⟨-,-,h⟩
    rw [haddr] at h
    exact absurd h (by decide)
  · exact id

/-- The visitor with 25 seconds is still there after 26 ticks of either run. -/
theorem visitor_outstays :
    ∃ t out, run step (AgentBase.configure 1 2 25)
        [.request true (visitRequest 25 9 5 3 4),.reply 0 (visitReply 9 5 3 4)] = some (t,out) ∧
      Remains 9 (visitorItem 0 (ForeignAgentReqProcess.pendingItem (visitRequest 25 9 5 3 4))
        (visitReply 9 5 3 4).reply) 0 t ∧
      ((∀ e ∈ stalled, ¬e.Concerns 9) ∧ ticks stalled = 26 ∧ ¬ExpiresOnTime 9 25 t stalled) ∧
      ((∀ e ∈ confused, ¬e.Concerns 9) ∧ ticks confused = 26 ∧ ¬ExpiresOnTime 9 25 t confused) := by
  have hfirst : (run step (AgentBase.configure 1 2 25)
      [.request true (visitRequest 25 9 5 3 4),.reply 0 (visitReply 9 5 3 4)]).any
      (fun r => decide (visitorsOf 9 r.1 = [agedVisitor 0 (visitorItem 0
        (ForeignAgentReqProcess.pendingItem (visitRequest 25 9 5 3 4)) (visitReply 9 5 3 4).reply)])) = true := by
    decide +kernel
  have hstalled : (run step (AgentBase.configure 1 2 25)
      ([.request true (visitRequest 25 9 5 3 4),.reply 0 (visitReply 9 5 3 4)] ++ stalled)).any
      (fun r => r.1.inMapNode 9) = true := by decide +kernel
  have hconfused : (run step (AgentBase.configure 1 2 25)
      ([.request true (visitRequest 25 9 5 3 4),.reply 0 (visitReply 9 5 3 4)] ++ confused)).any
      (fun r => r.1.inMapNode 9) = true := by decide +kernel
  obtain ⟨t,out,hinstall⟩ := run_isSome (AgentBase.configure 1 2 25)
    [.request true (visitRequest 25 9 5 3 4),.reply 0 (visitReply 9 5 3 4)]
  rw [hinstall] at hfirst
  have hremains : Remains 9 (visitorItem 0 (ForeignAgentReqProcess.pendingItem (visitRequest 25 9 5 3 4))
      (visitReply 9 5 3 4).reply) 0 t := by
    unfold Remains
    rw [if_pos (Nat.zero_le _)]
    exact of_decide_eq_true hfirst
  have hnot : ∀ es : List Event, ticks es = 26 →
      (run step (AgentBase.configure 1 2 25)
        ([.request true (visitRequest 25 9 5 3 4),.reply 0 (visitReply 9 5 3 4)] ++ es)).any
        (fun r => r.1.inMapNode 9) = true → ¬ExpiresOnTime 9 25 t es := by
    intro es hticks hlate h
    obtain ⟨u,out',hrun,hiff⟩ := h es [] (List.append_nil _).symm
    rw [run_append_eq_some.mpr ⟨t,out,out',hinstall,hrun,rfl⟩] at hlate
    have := hiff.mp hlate
    omega
  exact ⟨t,out,hinstall,hremains,⟨not_concerns_of_no_reply 9 (by simp [stalled]),rfl,hnot stalled rfl hstalled⟩,
    confused_concerns,rfl,hnot confused rfl hconfused⟩

end Expiry

end ClickMobileIP.ForeignAgent
