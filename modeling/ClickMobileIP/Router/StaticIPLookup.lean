import ClickMobileIP.Router.RouteTable

/-! # Tables that the scripts configure

A script gives the routes of a table as a list. `IPRouteTable::configure` adds them one
after the other and skips a route whose prefix is there already, so that the first of
several routes for a prefix counts, although the warning calls it replaced. The table of
the agents never changes afterwards; packets only change its caches.
-/
namespace ClickMobileIP.LinearIPLookup

/-- `none` is the error of a port that the element does not have. -/
def configure (noutputs : ℤ) (routes : List IPRoute) : Option LinearIPLookup :=
  if ∀ r ∈ routes, 0 ≤ r.port ∧ r.port < noutputs then
    some (routes.foldl (fun s r => (s.addRoute r false).getD s) {})
  else none

/-- A table with these routes and no dead slot, whatever packets it has seen. -/
structure Configured (routes : List IPRoute) (s : LinearIPLookup) : Prop where
  inv : Inv s
  content : content s.t = content routes
  real : ∀ e ∈ s.t, e.real = true

section Configuration
variable {s : LinearIPLookup} {routes : List IPRoute} {r : IPRoute}

theorem content_concat (hr : r.WellFormed) :
    LinearIPLookup.content (routes ++ [r]) =
      if LinearIPLookup.content routes (r.addr,r.mask) = none then
        Function.update (LinearIPLookup.content routes) (r.addr,r.mask) (some (r.gw,r.port))
      else LinearIPLookup.content routes := by
  funext k
  have hlast : LinearIPLookup.content (routes ++ [r]) k =
      (LinearIPLookup.content routes k).or (if k = (r.addr,r.mask) then some (r.gw,r.port) else none) := by
    unfold LinearIPLookup.content
    rw [List.find?_append,Option.map_or]
    congr 1
    by_cases hk : k = (r.addr,r.mask)
    · simp [hk,hr.real]
    · have hne : ¬(r.addr = k.1 ∧ r.mask = k.2) := fun h => hk (Prod.ext h.1.symm h.2.symm)
      simp [hk,hne]
  rw [hlast]
  by_cases hk : k = (r.addr,r.mask)
  · rw [if_pos hk,hk]
    cases hc : LinearIPLookup.content routes (r.addr,r.mask) with
    | none => simp
    | some hop => simp [hc]
  · rw [if_neg hk,Option.or_none]
    split_ifs
    · rw [Function.update_of_ne hk]
    · rfl

theorem real_addRoute {u : LinearIPLookup} (hr : r.WellFormed) (h : ∀ e ∈ s.t, e.real = true)
    (hu : s.addRoute r false = some u) : ∀ e ∈ u.t, e.real = true := by
  unfold addRoute at hu
  split at hu
  · cases hu
  · cases hu
    intro e he
    obtain ⟨i,hi⟩ := List.mem_iff_getElem?.mp he
    rcases insertAt_cases (freeSlot_le s.t) hi with ⟨-,rfl⟩ | ⟨-,d,hd,hsame,-⟩
    · exact hr.real
    · rw [hsame.real]
      exact h d (List.mem_of_getElem? hd)

theorem Configured.addRoute (h : Configured routes s) (hr : r.WellFormed) :
    Configured (routes ++ [r]) ((s.addRoute r false).getD s) := by
  cases hu : s.addRoute r false with
  | none =>
    obtain ⟨-,hknown⟩ := addRoute_eq_none h.inv hu
    refine ⟨h.inv,?_,h.real⟩
    rw [content_concat hr,← h.content,if_neg hknown]
    rfl
  | some u =>
    obtain ⟨hinv,hcontent,hfree⟩ := addRoute_refines h.inv hr hu
    have hnone : LinearIPLookup.content s.t (r.addr,r.mask) = none := by simpa using hfree
    refine ⟨hinv,?_,real_addRoute hr h.real hu⟩
    rw [content_concat hr,← h.content,if_pos hnone]
    exact hcontent

theorem Configured.foldl {more : List IPRoute} (h : Configured routes s) (hmore : ∀ r ∈ more, r.WellFormed) :
    Configured (routes ++ more) (more.foldl (fun s r => (s.addRoute r false).getD s) s) := by
  induction more generalizing routes s with
  | nil => simpa using h
  | cons r more ih =>
    have hrest := ih (h.addRoute (hmore r List.mem_cons_self)) (fun q hq => hmore q (List.mem_cons_of_mem _ hq))
    rw [List.append_assoc] at hrest
    exact hrest

theorem configured_of_configure {noutputs : ℤ} (hroutes : ∀ r ∈ routes, r.WellFormed)
    (h : configure noutputs routes = some s) : Configured routes s := by
  unfold configure at h
  split_ifs at h
  cases h
  have hempty : Configured [] {} := ⟨inv_initial,rfl,fun e he => absurd he List.not_mem_nil⟩
  exact hempty.foldl hroutes

theorem configure_isSome (noutputs : ℤ) (routes : List IPRoute) (hports : ∀ r ∈ routes, 0 ≤ r.port ∧ r.port < noutputs) :
    ∃ s, configure noutputs routes = some s := by
  rw [configure,if_pos hports]
  exact ⟨_,rfl⟩

theorem Configured.push (h : Configured routes s) (p : Packet) : Configured routes (s.push p).1 := by
  obtain ⟨hinv,ht,-⟩ := push_spec h.inv p
  exact ⟨hinv,by rw [ht,h.content],by rw [ht]; exact h.real⟩

theorem content_routes_eq_some {k : IPAddress × IPAddress} {hop : IPAddress × ℤ}
    (h : LinearIPLookup.content routes k = some hop) :
    ∃ q ∈ routes, (q.addr,q.mask) = k ∧ (q.gw,q.port) = hop := by
  obtain ⟨q,hq,rfl⟩ := Option.map_eq_some_iff.mp h
  have hprop := List.find?_some hq
  rw [Bool.and_eq_true,decide_eq_true_iff] at hprop
  exact ⟨q,List.mem_of_find?_eq_some hq,Prod.ext hprop.2.1 hprop.2.2,rfl⟩

/-- The route of the script that a packet takes is the only one with its prefix length, among those
that contain the destination, and no other of these is longer. -/
theorem Configured.push_eq (h : Configured routes s) {p : Packet} (hr : r ∈ routes) (hwell : r.WellFormed)
    (hcovers : r.contains p.dstIpAnno = true)
    (hlongest : ∀ q ∈ routes, q.contains p.dstIpAnno = true →
      q = r ∨ maskAsSpecific r.mask q.mask = true ∧ q.mask ≠ r.mask) :
    (s.push p).2 = [(r.port,if r.gw ≠ 0 then { p with dstIpAnno := r.gw } else p)] := by
  have hknown : LinearIPLookup.content routes (r.addr,r.mask) = some (r.gw,r.port) := by
    cases hc : LinearIPLookup.content routes (r.addr,r.mask) with
    | none =>
      have hno := List.find?_eq_none.mp (Option.map_eq_none_iff.mp hc) r hr
      simp [hwell.real] at hno
    | some hop =>
      obtain ⟨q,hq,hkey,rfl⟩ := content_routes_eq_some hc
      obtain ⟨haddr,hmask⟩ := Prod.mk.inj hkey
      have hq' : q.contains p.dstIpAnno = true := by
        rw [IPRoute.contains,haddr,hmask]
        exact hcovers
      rcases hlongest q hq hq' with rfl | ⟨-,hne⟩
      · rfl
      · exact absurd hmask hne
  have hmatch : LongestMatch (LinearIPLookup.content s.t) p.dstIpAnno (r.gw,r.port) (r.addr,r.mask) := by
    rw [h.content]
    refine ⟨hknown,hcovers,fun k hop hk hcontains => ?_⟩
    obtain ⟨q,hq,rfl,-⟩ := content_routes_eq_some hk
    rcases hlongest q hq hcontains with rfl | ⟨hspecific,-⟩
    · exact maskAsSpecific_iff.mpr (UInt32.and_self)
    · exact hspecific
  exact forwards_unique h.inv.sound ((push_spec h.inv p).2.2 (Or.inr h.real)) (Or.inr ⟨_,_,hmatch,rfl⟩)

end Configuration

section Routes
variable {a b mask gateway : IPAddress} {port : ℤ}

/-- `$address:ip/32 0` -/
def hostRoute (a : IPAddress) : IPRoute := { addr := a, mask := 0xffffffff, port := 0 }

/-- `$address:ipnet port` -/
def netRoute (a mask : IPAddress) (port : ℤ) : IPRoute := { addr := a &&& mask, mask := mask, port := port }

/-- `0.0.0.0/0 $gateway port` -/
def defaultRoute (gateway : IPAddress) (port : ℤ) : IPRoute := { addr := 0, mask := 0, gw := gateway, port := port }

theorem hostRoute_wellFormed (a : IPAddress) : (hostRoute a).WellFormed :=
  ⟨UInt32.and_neg_one,⟨32,show (0xffffffff : UInt32) = makePrefix 32 by decide⟩,show (0 : ℤ) ≤ 0 by decide⟩

theorem netRoute_wellFormed (hmask : IsPrefixMask mask) (hport : 0 ≤ port) :
    (netRoute a mask port).WellFormed :=
  ⟨by rw [netRoute,UInt32.and_assoc,UInt32.and_self],hmask,hport⟩

theorem defaultRoute_wellFormed (gateway : IPAddress) (hport : 0 ≤ port) :
    (defaultRoute gateway port).WellFormed :=
  ⟨UInt32.and_zero,⟨0,show (0 : UInt32) = makePrefix 0 by decide⟩,hport⟩

theorem contains_hostRoute : (hostRoute a).contains b = true ↔ b = a := by
  have hfull : ∀ x : UInt32, x &&& (0xffffffff : UInt32) = x := fun x => UInt32.and_neg_one
  rw [IPRoute.contains_iff,hostRoute,hfull,hfull]

theorem contains_netRoute : (netRoute a mask port).contains b = true ↔ b &&& mask = a &&& mask := by
  rw [IPRoute.contains_iff,netRoute,UInt32.and_assoc,UInt32.and_self]

theorem contains_defaultRoute : (defaultRoute gateway port).contains b = true := by
  rw [IPRoute.contains_iff,defaultRoute,UInt32.and_zero,UInt32.and_zero]

end Routes

end ClickMobileIP.LinearIPLookup
