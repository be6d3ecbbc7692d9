import ClickMobileIP.Router.LinearIPLookup

/-! # The routing table over whole histories

Every history of commands and packets keeps the table in order, its caches true and the
route for `0.0.0.0/32` in front of all dead slots. So the table can be replaced by the map
that the commands leave behind: lookups are longest matches in it, and a group of commands
of which one fails leaves it as it was.
-/
namespace ClickMobileIP.LinearIPLookup

/-- `0.0.0.0/32`, which is also what a dead slot looks like. -/
def IsZero (e : IPRoute) : Prop := e.addr = 0 ∧ e.mask = 0xffffffff

/-- The remembered index is that of the real route for `0.0.0.0/32`, in front of all dead slots. -/
structure ZeroOk (t : List IPRoute) (zeroRoute : Option ℕ) : Prop where
  zero : ∀ z, zeroRoute = some z → ∃ e, t[z]? = some e ∧ e.real = true ∧ IsZero e
  front : ∀ z, zeroRoute = some z → ∀ (i : ℕ) (d : IPRoute), t[i]? = some d → d.real = false → z < i
  complete : ∀ (i : ℕ) (e : IPRoute), t[i]? = some e → e.real = true → IsZero e → zeroRoute = some i

structure Inv (s : LinearIPLookup) : Prop where
  sound : Sound s.t
  zeroOk : ZeroOk s.t s.zeroRoute
  cache : s.lastAddr ≠ 0 → lookupEntry s.t s.lastAddr = s.lastEntry
  cache2 : s.lastAddr2 ≠ 0 → lookupEntry s.t s.lastAddr2 = s.lastEntry2

theorem inv_initial : Inv {} where
  sound :=
    { wellFormed := fun _ h => absurd h List.not_mem_nil
      dead := fun _ h => absurd h List.not_mem_nil
      nodup := by simp
      skipped := by simp }
  zeroOk :=
    { zero := by simp
      front := by simp
      complete := by simp }
  cache h := absurd rfl h
  cache2 h := absurd rfl h

section Zero
variable {t : List IPRoute} {r : IPRoute} {zeroRoute : Option ℕ}

theorem insertAt_real {i : ℕ} {e : IPRoute} (he : (insertAt t r (freeSlot t))[i]? = some e) :
    (i = freeSlot t ∧ e.addr = r.addr ∧ e.mask = r.mask) ∨
      (i ≠ freeSlot t ∧ ∃ d, t[i]? = some d ∧ SameRoute d e) := by
  rcases insertAt_cases (freeSlot_le t) he with ⟨hi,rfl⟩ | ⟨hi,d,hd,hsame,-⟩
  · exact Or.inl ⟨hi,rfl,rfl⟩
  · exact Or.inr ⟨hi,d,hd,hsame⟩

theorem lt_of_dead {i : ℕ} {d : IPRoute} (hd : t[i]? = some d) (hdead : d.real = false) : freeSlot t ≤ i := by
  by_contra hlt
  rw [real_of_lt_freeSlot (Nat.not_le.mp hlt) hd] at hdead
  cases hdead

theorem zeroOk_insert_zero (hr : r.WellFormed) (hz : IsZero r)
    (hfresh : ∀ e ∈ t, e.real = true → r.samePrefix e = false) :
    ZeroOk (insertAt t r (freeSlot t)) (some (freeSlot t)) where
  zero z h := by
    cases h
    refine ⟨{ r with extra := nextPointer t r (freeSlot t) },?_,hr.real,hz⟩
    rw [getElem?_insertAt (freeSlot_le t),if_neg (lt_irrefl _),if_pos rfl]
  front z h i d hd hdead := by
    cases h
    rcases insertAt_cases (freeSlot_le t) hd with ⟨-,rfl⟩ | ⟨hi,c,hc,hsame,-⟩
    · have hreal : ({ r with extra := nextPointer t r (freeSlot t) } : IPRoute).real = true := hr.real
      rw [hreal] at hdead
      cases hdead
    · have hle := lt_of_dead hc (hsame.real.symm.trans hdead)
      omega
  complete i e he hreal hzero := by
    rcases insertAt_real he with ⟨rfl,-⟩ | ⟨-,d,hd,hsame⟩
    · rfl
    · have hno := hfresh d (List.mem_of_getElem? hd) (hsame.real.symm.trans hreal)
      have haddr : r.addr = d.addr := hz.1.trans (hzero.1.symm.trans hsame.1)
      have hmask : r.mask = d.mask := hz.2.trans (hzero.2.symm.trans hsame.2.1)
      simp [IPRoute.samePrefix,haddr,hmask] at hno

/-- A route for any other prefix fills the first dead slot and leaves the rest in its order. -/
theorem ZeroOk.insert (h : ZeroOk t zeroRoute) (hr : r.WellFormed) (hz : ¬IsZero r) :
    ZeroOk (insertAt t r (freeSlot t)) zeroRoute where
  zero z hzr := by
    obtain ⟨e,he,hreal,hzero⟩ := h.zero z hzr
    have hne : z ≠ freeSlot t := by
      rintro rfl
      rw [dead_freeSlot he] at hreal
      cases hreal
    rw [getElem?_insertAt (freeSlot_le t)]
    by_cases hlow : z < freeSlot t
    · obtain ⟨hsame,-⟩ := patched_spec r (freeSlot t) e
      refine ⟨patched r (freeSlot t) e,?_,hsame.real.trans hreal,hsame.1.trans hzero.1,hsame.2.1.trans hzero.2⟩
      rw [if_pos hlow,he,Option.map_some]
    · exact ⟨e,by rw [if_neg hlow,if_neg hne,he],hreal,hzero⟩
  front z hzr i d hd hdead := by
    rcases insertAt_cases (freeSlot_le t) hd with ⟨-,rfl⟩ | ⟨-,c,hc,hsame,-⟩
    · have hreal : ({ r with extra := nextPointer t r (freeSlot t) } : IPRoute).real = true := hr.real
      rw [hreal] at hdead
      cases hdead
    · exact h.front z hzr i c hc (hsame.real.symm.trans hdead)
  complete i e he hreal hzero := by
    rcases insertAt_real he with ⟨-,haddr,hmask⟩ | ⟨-,d,hd,hsame⟩
    · exact absurd ⟨haddr.symm.trans hzero.1,hmask.symm.trans hzero.2⟩ hz
    · exact h.complete i d hd (hsame.real.symm.trans hreal) ⟨hsame.1.symm.trans hzero.1,hsame.2.1.symm.trans hzero.2⟩

end Zero

section AddRoute
variable {s u : LinearIPLookup} {r : IPRoute} {allowReplace : Bool}

theorem lookupEntry_replace (t : List IPRoute) (n : ℕ) (gw : IPAddress) (port : ℤ) (a : IPAddress) :
    lookupEntry (t.modify n fun e => { e with gw := gw, port := port }) a = lookupEntry t a := by
  have hslot : ∀ i, (slot (t.modify n fun e => { e with gw := gw, port := port }) i).addr = (slot t i).addr ∧
      (slot (t.modify n fun e => { e with gw := gw, port := port }) i).mask = (slot t i).mask ∧
      (slot (t.modify n fun e => { e with gw := gw, port := port }) i).extra = (slot t i).extra := by
    intro i
    rw [slot,slot,List.getD_eq_getElem?_getD,List.getD_eq_getElem?_getD,List.getElem?_modify]
    cases t[i]? with
    | none => exact ⟨rfl,rfl,rfl⟩
    | some e =>
      by_cases hn : n = i
      · simp [hn]
      · simp [hn]
  unfold lookupEntry
  rw [List.length_modify]
  congr 1
  · funext i
    rw [IPRoute.contains,IPRoute.contains,(hslot i).1,(hslot i).2.1]
  · funext j found
    rw [(hslot j).2.1,(hslot found).2.1]
  · funext i
    exact (hslot i).2.2

/-- What an added route does to the map of next hops. -/
theorem addRoute_refines (h : Inv s) (hr : r.WellFormed) (hu : addRoute s r allowReplace = some u) :
    Inv u ∧ content u.t = Function.update (content s.t) (r.addr,r.mask) (some (r.gw,r.port)) ∧
      (allowReplace = true ∨ content s.t (r.addr,r.mask) = none) := by
  unfold addRoute at hu
  cases hfind : s.t.findIdx? fun e => e.real && r.samePrefix e with
  | some i =>
    rw [hfind] at hu
    dsimp only at hu
    split_ifs at hu with hallow
    cases hu
    obtain ⟨hlt,hprop,-⟩ := List.findIdx?_eq_some_iff_getElem.mp hfind
    rw [Bool.and_eq_true] at hprop
    obtain ⟨hreal,hsame⟩ := hprop
    have he : s.t[i]? = some s.t[i] := List.getElem?_eq_getElem hlt
    obtain ⟨haddr,hmask⟩ := of_decide_eq_true hsame
    have hn : ∀ e, s.t[i]? = some e → e.real = true := by
      intro e hi
      rw [he] at hi
      cases hi
      exact hreal
    have hlive : ∀ e : IPRoute, ({ e with gw := r.gw, port := r.port } : IPRoute).real = true := fun e => hr.real
    refine ⟨⟨h.sound.replace i hr.port hn,⟨?_,?_,?_⟩,?_,?_⟩,?_,Or.inl hallow⟩
    · intro z hz
      obtain ⟨e,hez,hrz,hzero⟩ := h.zeroOk.zero z hz
      by_cases hi : i = z
      · refine ⟨{ e with gw := r.gw, port := r.port },?_,hlive e,hzero⟩
        rw [List.getElem?_modify,hez]
        simp [hi]
      · refine ⟨e,?_,hrz,hzero⟩
        rw [List.getElem?_modify,hez]
        simp [hi]
    · intro z hz j d hd hdead
      rcases modify_cases hd with ⟨-,c,-,rfl⟩ | ⟨-,hd⟩
      · rw [hlive c] at hdead
        cases hdead
      · exact h.zeroOk.front z hz j d hd hdead
    · intro j e hj hrj hzero
      rcases modify_cases hj with ⟨rfl,c,hc,rfl⟩ | ⟨-,hj⟩
      · exact h.zeroOk.complete j c hc (hn c hc) hzero
      · exact h.zeroOk.complete j e hj hrj hzero
    · intro hne
      exact (lookupEntry_replace ..).trans (h.cache hne)
    · intro hne
      exact (lookupEntry_replace ..).trans (h.cache2 hne)
    · rw [haddr,hmask]
      exact content_replace h.sound he hreal hr.port
  | none =>
    rw [hfind] at hu
    cases hu
    have hfresh : ∀ e ∈ s.t, e.real = true → r.samePrefix e = false := by
      intro e he hreal
      have hno := List.findIdx?_eq_none_iff.mp hfind e he
      rw [hreal,Bool.true_and] at hno
      exact hno
    refine ⟨⟨h.sound.insertAt hr hfresh,?_,fun hne => absurd rfl hne,fun hne => absurd rfl hne⟩,
      content_insertAt h.sound hr hfresh,Or.inr ?_⟩
    · by_cases hz : r.addr = 0 ∧ r.mask = 0xffffffff
      · dsimp only
        rw [if_pos hz]
        exact zeroOk_insert_zero hr hz hfresh
      · dsimp only
        rw [if_neg hz]
        exact h.zeroOk.insert hr hz
    · cases hc : content s.t (r.addr,r.mask) with
      | none => rfl
      | some hop =>
        obtain ⟨e,he,hreal,hkey,-⟩ := h.sound.content_eq_some.mp hc
        obtain ⟨haddr,hmask⟩ := Prod.mk.inj hkey
        have hno := hfresh e he hreal
        simp [IPRoute.samePrefix,haddr,hmask] at hno

theorem addRoute_eq_none (h : Inv s) (hnone : addRoute s r allowReplace = none) :
    allowReplace = false ∧ content s.t (r.addr,r.mask) ≠ none := by
  unfold addRoute at hnone
  cases hfind : s.t.findIdx? fun e => e.real && r.samePrefix e with
  | none =>
    rw [hfind] at hnone
    cases hnone
  | some i =>
    rw [hfind] at hnone
    dsimp only at hnone
    split_ifs at hnone with hallow
    obtain ⟨hlt,hprop,-⟩ := List.findIdx?_eq_some_iff_getElem.mp hfind
    rw [Bool.and_eq_true] at hprop
    obtain ⟨haddr,hmask⟩ := of_decide_eq_true hprop.2
    refine ⟨Bool.eq_false_iff.mpr hallow,?_⟩
    rw [h.sound.content_eq_some.mpr ⟨s.t[i],List.getElem_mem hlt,hprop.1,by rw [haddr,hmask],rfl⟩]
    exact Option.some_ne_none _

end AddRoute

section RemoveRoute
variable {s u : LinearIPLookup} {r : IPRoute}

def withoutRoute (m : IPAddress × IPAddress → Option (IPAddress × ℤ)) (r : IPRoute) :
    IPAddress × IPAddress → Option (IPAddress × ℤ) :=
  match m (r.addr,r.mask) with
  | none => m
  | some hop =>
    if r.port < 0 ∨ (r.gw = hop.1 ∧ r.port = hop.2) then Function.update m (r.addr,r.mask) none else m

/-- The first slot that matches is the real route for the prefix if there is one. -/
theorem real_of_match (h : Inv s) {i : ℕ} (hi : s.t.findIdx? r.matchesRoute = some i) {hop : IPAddress × ℤ}
    (hc : content s.t (r.addr,r.mask) = some hop) : (slot s.t i).real = true := by
  obtain ⟨hlt,hmatch,hfirst⟩ := List.findIdx?_eq_some_iff_getElem.mp hi
  have hslot : s.t[i]? = some s.t[i] := List.getElem?_eq_getElem hlt
  rw [slot_eq hslot]
  by_contra hdead
  rw [Bool.not_eq_true] at hdead
  obtain ⟨haddr,hmask,hport⟩ := of_decide_eq_true hmatch
  obtain ⟨hzaddr,hzmask⟩ := h.sound.dead _ (List.getElem_mem hlt) hdead
  -- only a route for `0.0.0.0/32` with any port matches a dead slot, and the real one stands in front
  obtain ⟨e,he,hreal,hkey,-⟩ := h.sound.content_eq_some.mp hc
  obtain ⟨hea,hem⟩ := Prod.mk.inj hkey
  obtain ⟨z,hz⟩ := List.mem_iff_getElem?.mp he
  have hzero := h.zeroOk.complete z e hz hreal ⟨hea.trans (haddr.trans hzaddr),hem.trans (hmask.trans hzmask)⟩
  have hfront := h.zeroOk.front z hzero i _ hslot hdead
  obtain ⟨hzlt,hze⟩ := List.getElem?_eq_some_iff.mp hz
  have hany : r.port < 0 := by
    rcases hport with hport | ⟨-,hport⟩
    · exact hport
    · have hneg : ¬-2147483648 < (s.t[i]).port := of_decide_eq_false hdead
      omega
  have hno := hfirst z hfront
  rw [hze,IPRoute.matchesRoute,decide_eq_true_iff] at hno
  exact hno ⟨hea.symm,hem.symm,Or.inl hany⟩

theorem zeroOk_kill (h : Inv s) {i : ℕ} (hbehind : ∀ z, s.zeroRoute = some z → z < i) :
    ZeroOk (s.t.modify i IPRoute.kill) s.zeroRoute where
  zero z hz := by
    obtain ⟨e,he,hreal,hzero⟩ := h.zeroOk.zero z hz
    have hne := hbehind z hz
    refine ⟨e,?_,hreal,hzero⟩
    rw [List.getElem?_modify,he]
    simp [show ¬i = z by omega]
  front z hz j d hd hdead := by
    rcases modify_cases hd with ⟨rfl,-⟩ | ⟨-,hd⟩
    · exact hbehind z hz
    · exact h.zeroOk.front z hz j d hd hdead
  complete j e hj hreal hzero := by
    rcases modify_cases hj with ⟨-,c,-,rfl⟩ | ⟨-,hj⟩
    · rw [IPRoute.real_kill] at hreal
      cases hreal
    · exact h.zeroOk.complete j e hj hreal hzero

theorem content_killed (h : Inv s) {i : ℕ} (hi : s.t.findIdx? r.matchesRoute = some i) :
    content (s.t.modify i IPRoute.kill) = withoutRoute (content s.t) r := by
  obtain ⟨hlt,hmatch,-⟩ := List.findIdx?_eq_some_iff_getElem.mp hi
  have hslot : s.t[i]? = some s.t[i] := List.getElem?_eq_getElem hlt
  obtain ⟨haddr,hmask,hport⟩ := of_decide_eq_true hmatch
  by_cases hreal : (s.t[i]).real = true
  · have hc : content s.t (r.addr,r.mask) = some ((s.t[i]).gw,(s.t[i]).port) :=
      h.sound.content_eq_some.mpr ⟨_,List.getElem_mem hlt,hreal,by rw [haddr,hmask],rfl⟩
    rw [content_kill h.sound hslot hreal,withoutRoute,hc,haddr,hmask]
    exact (if_pos hport).symm
  · have hc : content s.t (r.addr,r.mask) = none := by
      cases hc : content s.t (r.addr,r.mask) with
      | none => rfl
      | some hop =>
        have hlive := real_of_match h hi hc
        rw [slot_eq hslot] at hlive
        exact absurd hlive hreal
    rw [content_kill_dead h.sound hslot (Bool.eq_false_iff.mpr hreal),withoutRoute,hc]

theorem move_zero {t : List IPRoute} (h : Sound t) {z : ℕ} {e : IPRoute} (he : t[z]? = some e) (hreal : e.real = true)
    (hzero : IsZero e) (s : LinearIPLookup) :
    ∃ u, addRoute { s with t := t.modify z IPRoute.kill } e false = some u ∧ Sound u.t ∧ ZeroOk u.t u.zeroRoute ∧
      content u.t = content t := by
  have hwell := h.wellFormed e (List.mem_of_getElem? he) hreal
  have hfresh : ∀ d ∈ t.modify z IPRoute.kill, d.real = true → e.samePrefix d = false := by
    intro d hd hr
    by_contra hsame
    obtain ⟨haddr,hmask⟩ := of_decide_eq_true (Bool.not_eq_false _ ▸ hsame : e.samePrefix d = true)
    obtain ⟨j,hj⟩ := List.mem_iff_getElem?.mp hd
    rcases modify_cases hj with ⟨-,c,-,rfl⟩ | ⟨hne,hj⟩
    · rw [IPRoute.real_kill] at hr
      cases hr
    · exact hne (h.nodup j z d e hj he hr hreal haddr.symm hmask.symm)
  have hfind : (t.modify z IPRoute.kill).findIdx? (fun d => d.real && e.samePrefix d) = none := by
    rw [List.findIdx?_eq_none_iff]
    intro d hd
    cases hr : d.real with
    | false => rfl
    | true => rw [Bool.true_and,hfresh d hd hr]
  refine ⟨_,by rw [addRoute,hfind],(h.kill z).insertAt hwell hfresh,?_,?_⟩
  · have hcond : e.addr = 0 ∧ e.mask = 0xffffffff := hzero
    dsimp only
    rw [if_pos hcond]
    exact zeroOk_insert_zero hwell hzero hfresh
  · dsimp only
    have hc : content t (e.addr,e.mask) = some (e.gw,e.port) :=
      h.content_eq_some.mpr ⟨e,List.mem_of_getElem? he,hreal,rfl,rfl⟩
    rw [content_insertAt (h.kill z) hwell hfresh,content_kill h he hreal,Function.update_idem,← hc,
      Function.update_eq_self]

/-- What a removed route does to the map of next hops. -/
theorem removeRoute_refines (h : Inv s) (hu : removeRoute s r = some u) :
    Inv u ∧ content u.t = withoutRoute (content s.t) r := by
  unfold removeRoute at hu
  cases hi : s.t.findIdx? r.matchesRoute with
  | none =>
    rw [hi] at hu
    cases hu
  | some i =>
    rw [hi] at hu
    dsimp only at hu
    cases hu
    have hcontent := content_killed h hi
    have hsound := h.sound.kill i
    cases hz : s.zeroRoute with
    | none =>
      have hzero := zeroOk_kill h (i := i) (fun z hz' => by rw [hz] at hz'; cases hz')
      rw [hz] at hzero
      exact ⟨⟨hsound,hzero,fun hne => absurd rfl hne,fun hne => absurd rfl hne⟩,hcontent⟩
    | some z =>
      dsimp only
      by_cases heq : i = z
      · rw [if_pos heq]
        refine ⟨⟨hsound,⟨by simp,by simp,?_⟩,fun hne => absurd rfl hne,fun hne => absurd rfl hne⟩,hcontent⟩
        intro j e hj hreal hzero
        rcases modify_cases hj with ⟨-,c,-,rfl⟩ | ⟨hne,hj⟩
        · rw [IPRoute.real_kill] at hreal
          cases hreal
        · have hother := h.zeroOk.complete j e hj hreal hzero
          rw [hz] at hother
          exact absurd (heq.trans (Option.some.inj hother)).symm hne
      · rw [if_neg heq]
        by_cases hlt : i < z
        · rw [if_pos hlt]
          obtain ⟨e,he,hreal,hzero⟩ := h.zeroOk.zero z hz
          have hez : (s.t.modify i IPRoute.kill)[z]? = some e := by
            rw [List.getElem?_modify,he]
            simp [heq]
          obtain ⟨w,hw,hws,hwz,hwc⟩ := move_zero hsound hez hreal hzero s
          have hslot : slot (s.t.modify i IPRoute.kill) z = e := slot_eq hez
          rw [hz] at hw
          rw [hslot,hw,Option.getD_some]
          exact ⟨⟨hws,hwz,fun hne => absurd rfl hne,fun hne => absurd rfl hne⟩,hwc.trans hcontent⟩
        · rw [if_neg hlt]
          have hzero := zeroOk_kill h (i := i) (fun z' hz' => by
            rw [hz] at hz'
            have := Option.some.inj hz'
            omega)
          exact ⟨⟨hsound,by rw [← hz]; exact hzero,fun hne => absurd rfl hne,fun hne => absurd rfl hne⟩,hcontent⟩

theorem removeRoute_eq_none (h : Inv s) (hnone : removeRoute s r = none) :
    withoutRoute (content s.t) r = content s.t := by
  unfold removeRoute at hnone
  cases hi : s.t.findIdx? r.matchesRoute with
  | some i =>
    rw [hi] at hnone
    cases hnone
  | none =>
    unfold withoutRoute
    cases hc : content s.t (r.addr,r.mask) with
    | none => rfl
    | some hop =>
      obtain ⟨e,he,hreal,hkey,rfl⟩ := h.sound.content_eq_some.mp hc
      obtain ⟨haddr,hmask⟩ := Prod.mk.inj hkey
      have hno := List.findIdx?_eq_none_iff.mp hi e he
      rw [IPRoute.matchesRoute,decide_eq_false_iff_not] at hno
      exact if_neg fun hport => hno ⟨haddr.symm,hmask.symm,hport⟩

end RemoveRoute

section Lookup
variable {s : LinearIPLookup} {t : List IPRoute} {a : IPAddress}

/-- The next hop of the longest prefix in a map that contains an address. -/
structure LongestMatch (m : IPAddress × IPAddress → Option (IPAddress × ℤ)) (a : IPAddress)
    (hop : IPAddress × ℤ) (k : IPAddress × IPAddress) : Prop where
  known : m k = some hop
  covers : matchesPrefix a k.1 k.2 = true
  longest : ∀ k' hop', m k' = some hop' → matchesPrefix a k'.1 k'.2 = true → maskAsSpecific k.2 k'.2 = true

theorem lookupEntry_eq_some (h : Sound t) (ha : Undisturbed t a) {i : ℕ} (hi : lookupEntry t a = some i) :
    i < t.length ∧ LongestMatch (content t) a ((slot t i).gw,(slot t i).port) ((slot t i).addr,(slot t i).mask) := by
  have hfinest := SkipSearch.search_isFinest (h.ordered ha) hi
  have hslot := getElem?_slot hfinest.inside
  have hreal := h.real_of_contains ha hfinest.inside hfinest.hits
  refine ⟨hfinest.inside,h.content_eq_some.mpr ⟨_,List.mem_of_getElem? hslot,hreal,rfl,rfl⟩,hfinest.hits,?_⟩
  intro k' hop' hk' hcovers
  obtain ⟨e,he,-,rfl,-⟩ := h.content_eq_some.mp hk'
  obtain ⟨j,hj⟩ := List.mem_iff_getElem?.mp he
  obtain ⟨hlt,-⟩ := List.getElem?_eq_some_iff.mp hj
  have hfine := hfinest.finest j hlt (by rw [slot_eq hj]; exact hcovers)
  rw [slot_eq hj] at hfine
  exact hfine

theorem lookupEntry_eq_none (h : Sound t) (hi : lookupEntry t a = none) (k : IPAddress × IPAddress)
    (hop : IPAddress × ℤ) (hk : content t k = some hop) : matchesPrefix a k.1 k.2 = false := by
  obtain ⟨e,he,-,rfl,-⟩ := h.content_eq_some.mp hk
  obtain ⟨j,hj⟩ := List.mem_iff_getElem?.mp he
  obtain ⟨hlt,-⟩ := List.getElem?_eq_some_iff.mp hj
  have hno := SkipSearch.search_eq_none.mp hi j hlt
  rw [slot_eq hj] at hno
  exact hno

/-- The caches answer as the table does. -/
theorem cachedEntry_spec (h : Inv s) (a : IPAddress) : (s.cachedEntry a).2 = lookupEntry s.t a ∧
    Inv (s.cachedEntry a).1 ∧ (s.cachedEntry a).1.t = s.t := by
  unfold cachedEntry
  by_cases hlast : a ≠ 0 ∧ a = s.lastAddr
  · rw [if_pos hlast,hlast.2]
    exact ⟨(h.cache (hlast.2 ▸ hlast.1)).symm,h,rfl⟩
  · rw [if_neg hlast]
    by_cases hlast2 : a ≠ 0 ∧ a = s.lastAddr2
    · rw [if_pos hlast2,hlast2.2]
      exact ⟨(h.cache2 (hlast2.2 ▸ hlast2.1)).symm,h,rfl⟩
    · rw [if_neg hlast2]
      cases hi : lookupEntry s.t a with
      | none => exact ⟨rfl,h,rfl⟩
      | some i => exact ⟨rfl,⟨h.sound,h.zeroOk,fun _ => hi,h.cache⟩,rfl⟩

/-- A packet leaves by the longest match and towards its gateway, or is dropped for want of one. -/
def Forwards (m : IPAddress × IPAddress → Option (IPAddress × ℤ)) (p : Packet) (out : List (ℤ × Packet)) : Prop :=
  (out = [] ∧ ∀ k hop, m k = some hop → matchesPrefix p.dstIpAnno k.1 k.2 = false) ∨
    ∃ hop k, LongestMatch m p.dstIpAnno hop k ∧
      out = [(hop.2,if hop.1 ≠ 0 then { p with dstIpAnno := hop.1 } else p)]

theorem push_spec (h : Inv s) (p : Packet) : Inv (s.push p).1 ∧ (s.push p).1.t = s.t ∧
    (Undisturbed s.t p.dstIpAnno → Forwards (content s.t) p (s.push p).2) := by
  obtain ⟨hentry,hinv,ht⟩ := cachedEntry_spec h p.dstIpAnno
  unfold push
  generalize s.cachedEntry p.dstIpAnno = r at *
  obtain ⟨u,entry⟩ := r
  cases entry with
  | none =>
    exact ⟨hinv,ht,fun _ => Or.inl ⟨rfl,lookupEntry_eq_none h.sound hentry.symm⟩⟩
  | some ei =>
    refine ⟨hinv,ht,fun ha => Or.inr ?_⟩
    dsimp only at ht ⊢
    obtain ⟨-,hlongest⟩ := lookupEntry_eq_some h.sound ha hentry.symm
    exact ⟨_,_,hlongest,by rw [ht]⟩

end Lookup

section Commands

/-- `CMD_ADD`, `CMD_SET` and `CMD_REMOVE`. -/
inductive Kind
  | add
  | set
  | remove
  deriving DecidableEq, Repr

structure Command where
  kind : Kind
  route : IPRoute

/-- The port check of a command; a removal need not name a port. -/
def Command.badOutput (noutputs : ℤ) (c : Command) : Bool :=
  decide (c.route.port < (if c.kind = .remove then -1 else 0) ∨ noutputs ≤ c.route.port)

/-- The new table and what a rollback needs to know. The route that was there before counts if
its port is not negative. -/
def runCommand (noutputs : ℤ) (s : LinearIPLookup) (c : Command) : Option (LinearIPLookup × Kind × IPRoute) :=
  if c.badOutput noutputs then none
  else
    match c.kind with
    | .add => (addRoute s c.route false).map fun u => (u,.add,c.route)
    | .set =>
      (addRoute s c.route true).map fun u =>
        match s.t.findIdx? fun e => e.real && c.route.samePrefix e with
        | some i => if (slot s.t i).port < 0 then (u,.add,c.route) else (u,.set,slot s.t i)
        | none => (u,.add,c.route)
    | .remove =>
      (removeRoute s c.route).map fun u =>
        match s.t.findIdx? c.route.matchesRoute with
        | some i => if (slot s.t i).port < 0 then (u,.add,c.route) else (u,.remove,slot s.t i)
        | none => (u,.add,c.route)

/-- One step of the rollback; errors are ignored. -/
def undo (s : LinearIPLookup) (old : Kind × IPRoute) : LinearIPLookup :=
  match old.1 with
  | .remove => (addRoute s old.2 false).getD s
  | .add => (removeRoute s old.2).getD s
  | .set => (addRoute s old.2 true).getD s

/-- The loop of `ctrl_handler` over its commands, with the stack of old routes. -/
def ctrlLoop (noutputs : ℤ) : LinearIPLookup → List (Kind × IPRoute) → List Command → LinearIPLookup × Bool
  | s, _, [] => (s,true)
  | s, oldRoutes, c :: cs =>
    match runCommand noutputs s c with
    | none => (oldRoutes.foldl undo s,false)
    | some (u,old) => ctrlLoop noutputs u (old :: oldRoutes) cs

def ctrlHandler (noutputs : ℤ) (s : LinearIPLookup) (cs : List Command) : LinearIPLookup × Bool :=
  ctrlLoop noutputs s [] cs

/-- A command whose mask is that of a prefix. The parser also takes dotted masks with holes,
for which slots put back elsewhere can answer differently. -/
structure Command.Parsed (c : Command) : Prop where
  normal : c.route.addr &&& c.route.mask = c.route.addr
  isPrefix : IsPrefixMask c.route.mask

def Command.apply (m : IPAddress × IPAddress → Option (IPAddress × ℤ)) (c : Command) :
    IPAddress × IPAddress → Option (IPAddress × ℤ) :=
  match c.kind with
  | .remove => withoutRoute m c.route
  | _ => Function.update m (c.route.addr,c.route.mask) (some (c.route.gw,c.route.port))

end Commands

section Rollback
variable {s u v : LinearIPLookup} {c : Command} {old : Kind × IPRoute} {r : IPRoute} {noutputs : ℤ}

theorem Command.Parsed.wellFormed (h : c.Parsed) (hport : c.badOutput noutputs = false) (hk : c.kind ≠ .remove) :
    c.route.WellFormed := by
  have hok := of_decide_eq_false hport
  rw [if_neg hk] at hok
  exact ⟨h.normal,h.isPrefix,by omega⟩

theorem undo_add (h : Inv v) (r : IPRoute) :
    Inv (undo v (.add,r)) ∧ content (undo v (.add,r)).t = withoutRoute (content v.t) r := by
  change Inv ((removeRoute v r).getD v) ∧ content ((removeRoute v r).getD v).t = _
  cases hu : removeRoute v r with
  | none => exact ⟨h,(removeRoute_eq_none h hu).symm⟩
  | some u => exact removeRoute_refines h hu

theorem undo_set (h : Inv v) (hr : r.WellFormed) : Inv (undo v (.set,r)) ∧
    content (undo v (.set,r)).t = Function.update (content v.t) (r.addr,r.mask) (some (r.gw,r.port)) := by
  change Inv ((addRoute v r true).getD v) ∧ content ((addRoute v r true).getD v).t = _
  cases hu : addRoute v r true with
  | none => exact absurd (addRoute_eq_none h hu).1 (by decide)
  | some u =>
    obtain ⟨hinv,hcontent,-⟩ := addRoute_refines h hr hu
    exact ⟨hinv,hcontent⟩

theorem undo_remove (h : Inv v) (hr : r.WellFormed) (hfree : content v.t (r.addr,r.mask) = none) :
    Inv (undo v (.remove,r)) ∧
      content (undo v (.remove,r)).t = Function.update (content v.t) (r.addr,r.mask) (some (r.gw,r.port)) := by
  change Inv ((addRoute v r false).getD v) ∧ content ((addRoute v r false).getD v).t = _
  cases hu : addRoute v r false with
  | none => exact absurd hfree (addRoute_eq_none h hu).2
  | some u =>
    obtain ⟨hinv,hcontent,-⟩ := addRoute_refines h hr hu
    exact ⟨hinv,hcontent⟩

theorem withoutRoute_update {m : IPAddress × IPAddress → Option (IPAddress × ℤ)}
    (hfree : m (r.addr,r.mask) = none) :
    withoutRoute (Function.update m (r.addr,r.mask) (some (r.gw,r.port))) r = m := by
  rw [withoutRoute,Function.update_self]
  dsimp only
  rw [if_pos (Or.inr ⟨rfl,rfl⟩),Function.update_idem,← hfree,Function.update_eq_self]

/-- `old` takes the map from `after` back to `before`, whatever the table looks like. -/
def Restores (old : Kind × IPRoute) (before after : IPAddress × IPAddress → Option (IPAddress × ℤ)) : Prop :=
  ∀ v, Inv v → content v.t = after → Inv (undo v old) ∧ content (undo v old).t = before

theorem restores_added {m : IPAddress × IPAddress → Option (IPAddress × ℤ)} (hfree : m (r.addr,r.mask) = none) :
    Restores (.add,r) m (Function.update m (r.addr,r.mask) (some (r.gw,r.port))) := by
  intro v hv hcontent
  obtain ⟨hinv,hback⟩ := undo_add hv r
  refine ⟨hinv,?_⟩
  rw [hback,hcontent,withoutRoute_update hfree]

theorem restores_replaced (h : Inv s) {e : IPRoute} (he : e ∈ s.t) (hreal : e.real = true) (hop : IPAddress × ℤ) :
    Restores (.set,e) (content s.t) (Function.update (content s.t) (e.addr,e.mask) (some hop)) := by
  intro v hv hcv
  obtain ⟨hback,hbc⟩ := undo_set hv (h.sound.wellFormed e he hreal)
  have hm : content s.t (e.addr,e.mask) = some (e.gw,e.port) := h.sound.content_eq_some.mpr ⟨e,he,hreal,rfl,rfl⟩
  refine ⟨hback,?_⟩
  rw [hbc,hcv,Function.update_idem,← hm,Function.update_eq_self]

theorem restores_removed (h : Inv s) {e : IPRoute} (he : e ∈ s.t) (hreal : e.real = true) :
    Restores (.remove,e) (content s.t) (Function.update (content s.t) (e.addr,e.mask) none) := by
  intro v hv hcv
  have hfree : content v.t (e.addr,e.mask) = none := by rw [hcv,Function.update_self]
  obtain ⟨hback,hbc⟩ := undo_remove hv (h.sound.wellFormed e he hreal) hfree
  have hm : content s.t (e.addr,e.mask) = some (e.gw,e.port) := h.sound.content_eq_some.mpr ⟨e,he,hreal,rfl,rfl⟩
  refine ⟨hback,?_⟩
  rw [hbc,hcv,Function.update_idem,← hm,Function.update_eq_self]

theorem content_eq_none (h : Inv s) (hfind : s.t.findIdx? (fun e => e.real && r.samePrefix e) = none) :
    content s.t (r.addr,r.mask) = none := by
  cases hm : content s.t (r.addr,r.mask) with
  | none => rfl
  | some hop =>
    obtain ⟨e,he,hreal,hkey,-⟩ := h.sound.content_eq_some.mp hm
    obtain ⟨haddr,hmask⟩ := Prod.mk.inj hkey
    have hno := List.findIdx?_eq_none_iff.mp hfind e he
    simp [hreal,IPRoute.samePrefix,haddr,hmask] at hno

theorem runCommand_set (h : Inv s) (hwell : c.route.WellFormed) (hk : c.kind = .set)
    (hrun : runCommand noutputs s c = some (u,old)) :
    Inv u ∧ content u.t = c.apply (content s.t) ∧ Restores old (content s.t) (content u.t) := by
  unfold runCommand at hrun
  split_ifs at hrun with hport
  rw [hk] at hrun
  obtain ⟨w,hw,heq⟩ := Option.map_eq_some_iff.mp hrun
  obtain ⟨hinv,hcontent,-⟩ := addRoute_refines h hwell hw
  have happly : content w.t = c.apply (content s.t) := by rw [hcontent,Command.apply,hk]
  cases hfind : s.t.findIdx? fun e => e.real && c.route.samePrefix e with
  | none =>
    rw [hfind] at heq
    cases heq
    refine ⟨hinv,happly,?_⟩
    rw [hcontent]
    exact restores_added (content_eq_none h hfind)
  | some i =>
    obtain ⟨hlt,hprop,-⟩ := List.findIdx?_eq_some_iff_getElem.mp hfind
    rw [Bool.and_eq_true] at hprop
    obtain ⟨haddr,hmask⟩ := of_decide_eq_true hprop.2
    have hslot : slot s.t i = s.t[i] := slot_eq (List.getElem?_eq_getElem hlt)
    have hnonneg := (h.sound.wellFormed _ (List.getElem_mem hlt) hprop.1).port
    rw [hfind] at heq
    dsimp only at heq
    rw [hslot,if_neg (by omega)] at heq
    cases heq
    refine ⟨hinv,happly,?_⟩
    rw [hcontent,haddr,hmask]
    exact restores_replaced h (List.getElem_mem hlt) hprop.1 _

theorem runCommand_remove (h : Inv s) (hk : c.kind = .remove) (hrun : runCommand noutputs s c = some (u,old)) :
    Inv u ∧ content u.t = c.apply (content s.t) ∧ Restores old (content s.t) (content u.t) := by
  unfold runCommand at hrun
  split_ifs at hrun with hport
  rw [hk] at hrun
  obtain ⟨w,hw,heq⟩ := Option.map_eq_some_iff.mp hrun
  obtain ⟨hinv,hcontent⟩ := removeRoute_refines h hw
  have happly : content w.t = c.apply (content s.t) := by rw [hcontent,Command.apply,hk]
  cases hfind : s.t.findIdx? c.route.matchesRoute with
  | none =>
    rw [removeRoute,hfind] at hw
    cases hw
  | some i =>
    obtain ⟨hlt,hmatch,-⟩ := List.findIdx?_eq_some_iff_getElem.mp hfind
    obtain ⟨haddr,hmask,hany⟩ := of_decide_eq_true hmatch
    have hslot : slot s.t i = s.t[i] := slot_eq (List.getElem?_eq_getElem hlt)
    rw [hfind] at heq
    dsimp only at heq
    rw [hslot] at heq
    by_cases hreal : (s.t[i]).real = true
    · have hnonneg := (h.sound.wellFormed _ (List.getElem_mem hlt) hreal).port
      rw [if_neg (by omega)] at heq
      cases heq
      have hm : content s.t ((s.t[i]).addr,(s.t[i]).mask) = some ((s.t[i]).gw,(s.t[i]).port) :=
        h.sound.content_eq_some.mpr ⟨_,List.getElem_mem hlt,hreal,rfl,rfl⟩
      have hgone : withoutRoute (content s.t) c.route =
          Function.update (content s.t) ((s.t[i]).addr,(s.t[i]).mask) none := by
        rw [withoutRoute,haddr,hmask,hm]
        exact if_pos hany
      refine ⟨hinv,happly,?_⟩
      rw [hcontent,hgone]
      exact restores_removed h (List.getElem_mem hlt) hreal
    · -- a dead slot has been removed once more, for want of the route
      have hdead : ¬-2147483648 < (s.t[i]).port := of_decide_eq_false (Bool.eq_false_iff.mpr hreal)
      rw [if_pos (by omega)] at heq
      cases heq
      have hfree : content s.t (c.route.addr,c.route.mask) = none := by
        cases hm : content s.t (c.route.addr,c.route.mask) with
        | none => rfl
        | some hop => exact absurd (hslot ▸ real_of_match h hfind hm) hreal
      have hsame : withoutRoute (content s.t) c.route = content s.t := by rw [withoutRoute,hfree]
      refine ⟨hinv,happly,?_⟩
      intro v hv hcv
      obtain ⟨hback,hbc⟩ := undo_add hv c.route
      refine ⟨hback,?_⟩
      rw [hbc,hcv,hcontent,hsame,hsame]

/-- A command that succeeds does what it is for, and its record takes it back. -/
theorem runCommand_spec (h : Inv s) (hc : c.Parsed) (hrun : runCommand noutputs s c = some (u,old)) :
    Inv u ∧ content u.t = c.apply (content s.t) ∧ Restores old (content s.t) (content u.t) := by
  have hport : c.badOutput noutputs = false := by
    by_contra hbad
    rw [runCommand,if_pos (Bool.not_eq_false _ ▸ hbad)] at hrun
    cases hrun
  cases hk : c.kind with
  | add =>
    rw [runCommand,hport,hk] at hrun
    obtain ⟨w,hw,heq⟩ := Option.map_eq_some_iff.mp hrun
    cases heq
    obtain ⟨hinv,hcontent,hfree⟩ := addRoute_refines h (hc.wellFormed hport (by rw [hk]; decide)) hw
    refine ⟨hinv,by rw [hcontent,Command.apply,hk],?_⟩
    rw [hcontent]
    exact restores_added (hfree.resolve_left (by decide))
  | set => exact runCommand_set h (hc.wellFormed hport (by rw [hk]; decide)) hk hrun
  | remove => exact runCommand_remove h hk hrun

/-- The stack of a loop takes every table with this map back to the map at the start. -/
def StackRestores (stack : List (Kind × IPRoute)) (start now : IPAddress × IPAddress → Option (IPAddress × ℤ)) :
    Prop :=
  ∀ v, Inv v → content v.t = now → Inv (stack.foldl undo v) ∧ content (stack.foldl undo v).t = start

theorem ctrlLoop_spec (cs : List Command) (hcs : ∀ c ∈ cs, c.Parsed)
    {start : IPAddress × IPAddress → Option (IPAddress × ℤ)} {stack : List (Kind × IPRoute)} (h : Inv s)
    (hstack : StackRestores stack start (content s.t)) :
    Inv (ctrlLoop noutputs s stack cs).1 ∧
      ((ctrlLoop noutputs s stack cs).2 = true →
        content (ctrlLoop noutputs s stack cs).1.t = cs.foldl Command.apply (content s.t)) ∧
      ((ctrlLoop noutputs s stack cs).2 = false → content (ctrlLoop noutputs s stack cs).1.t = start) := by
  induction cs generalizing s stack with
  | nil => exact ⟨h,fun _ => rfl,fun hfalse => nomatch hfalse⟩
  | cons c cs ih =>
    rw [ctrlLoop]
    cases hrun : runCommand noutputs s c with
    | none =>
      obtain ⟨hinv,hback⟩ := hstack s h rfl
      exact ⟨hinv,(fun htrue => nomatch htrue),fun _ => hback⟩
    | some r =>
      obtain ⟨u,old⟩ := r
      obtain ⟨hinv,hcontent,hrestores⟩ := runCommand_spec h (hcs c List.mem_cons_self) hrun
      have hnext : StackRestores (old :: stack) start (content u.t) := by
        intro v hv hcv
        obtain ⟨hback,hbc⟩ := hrestores v hv hcv
        exact hstack _ hback hbc
      obtain ⟨hfinal,hok,hfail⟩ := ih (fun d hd => hcs d (List.mem_cons_of_mem _ hd)) hinv hnext
      refine ⟨hfinal,fun htrue => ?_,hfail⟩
      rw [hok htrue,List.foldl_cons,hcontent]

end Rollback

section History

/-- A route of the configuration or of one of the single handlers, a group of commands, or a
packet. -/
inductive Event
  | command (c : Command)
  | ctrl (cs : List Command)
  | packet (p : Packet)

def step (noutputs : ℤ) (s : LinearIPLookup) : Event → Option (LinearIPLookup × List (ℤ × Packet))
  | .command c => some (((runCommand noutputs s c).map Prod.fst).getD s,[])
  | .ctrl cs => some ((ctrlHandler noutputs s cs).1,[])
  | .packet p => some (push s p)

def Event.Parsed : Event → Prop
  | .command c => c.Parsed
  | .ctrl cs => ∀ c ∈ cs, c.Parsed
  | .packet _ => True

variable {noutputs : ℤ} {s u : LinearIPLookup} {es : List Event} {out : List (ℤ × Packet)}

theorem ctrlHandler_spec (noutputs : ℤ) (h : Inv s) {cs : List Command} (hcs : ∀ c ∈ cs, c.Parsed) :
    Inv (ctrlHandler noutputs s cs).1 ∧
      ((ctrlHandler noutputs s cs).2 = true →
        content (ctrlHandler noutputs s cs).1.t = cs.foldl Command.apply (content s.t)) ∧
      ((ctrlHandler noutputs s cs).2 = false → content (ctrlHandler noutputs s cs).1.t = content s.t) :=
  ctrlLoop_spec cs hcs h fun _ hv hcv => ⟨hv,hcv⟩

theorem step_inv {e : Event} (he : e.Parsed) (h : Inv s) (hstep : step noutputs s e = some (u,out)) : Inv u := by
  cases e with
  | command c =>
    cases hstep
    cases hrun : runCommand noutputs s c with
    | none => exact h
    | some r =>
      obtain ⟨w,old⟩ := r
      exact (runCommand_spec h he hrun).1
  | ctrl cs =>
    cases hstep
    exact (ctrlHandler_spec noutputs h he).1
  | packet p =>
    have hpush := Option.some.inj hstep
    have hinv := (push_spec h p).1
    rw [hpush] at hinv
    exact hinv

theorem run_inv (hes : ∀ e ∈ es, e.Parsed) (hrun : EventRun.run (step noutputs) {} es = some (u,out)) : Inv u :=
  EventRun.run_preserves_mem (fun e he _ _ _ h hstep => step_inv (hes e he) h hstep) inv_initial hrun

theorem forwards_unique {t : List IPRoute} (h : Sound t) {p : Packet} {out out' : List (ℤ × Packet)}
    (hout : Forwards (content t) p out) (hout' : Forwards (content t) p out') : out = out' := by
  rcases hout with ⟨rfl,hnone⟩ | ⟨hop,k,hk,rfl⟩
  · rcases hout' with ⟨rfl,-⟩ | ⟨hop',k',hk',-⟩
    · rfl
    · have hno := hnone k' hop' hk'.known
      rw [hk'.covers] at hno
      cases hno
  · rcases hout' with ⟨-,hnone⟩ | ⟨hop',k',hk',rfl⟩
    · have hno := hnone k hop hk.known
      rw [hk.covers] at hno
      cases hno
    · obtain ⟨e,he,hreal,rfl,rfl⟩ := h.content_eq_some.mp hk.known
      obtain ⟨e',he',hreal',rfl,rfl⟩ := h.content_eq_some.mp hk'.known
      have hmask : e.mask = e'.mask := maskAsSpecific_antisymm (hk.longest _ _ hk'.known hk'.covers)
        (hk'.longest _ _ hk.known hk.covers)
      have haddr : e.addr = e'.addr := by
        rw [← (h.wellFormed e he hreal).normal,← (h.wellFormed e' he' hreal').normal,
          ← matchesPrefix_iff.mp hk.covers,← matchesPrefix_iff.mp hk'.covers,hmask]
      have hsame := hk.known
      rw [haddr,hmask,hk'.known] at hsame
      obtain ⟨hgw,hport⟩ := Prod.mk.inj (Option.some.inj hsame)
      dsimp only at hgw hport ⊢
      rw [hgw,hport]

/-- After every history of commands, groups of commands and packets: a packet leaves by the
longest of the prefixes in the table that contain its destination, whatever the caches hold.
Only for `0.0.0.0` no slot may be dead. -/
theorem push_longest_match (noutputs : ℤ) (es : List Event) (hes : ∀ e ∈ es, e.Parsed) (u : LinearIPLookup)
    (out : List (ℤ × Packet)) (hrun : EventRun.run (step noutputs) {} es = some (u,out)) (p : Packet)
    (hp : p.dstIpAnno ≠ 0 ∨ ∀ e ∈ u.t, e.real = true) : Forwards (content u.t) p (u.push p).2 :=
  (push_spec (run_inv hes hrun) p).2.2 hp

/-- The routes of the mobile node of the scripts, and the removal of the one for its network. -/
def nodeHistory : List Event :=
  [.command ⟨.add,{ addr := htonl 0xc0a80201, mask := makePrefix 32, port := 0 }⟩,
    .command ⟨.add,{ addr := htonl 0xc0a80200, mask := makePrefix 24, port := 1 }⟩,
    .command ⟨.add,{ addr := 0, mask := makePrefix 0, port := 2 }⟩,
    .packet ⟨[],htonl 0xc0a802fe⟩,
    .ctrl [⟨.remove,{ addr := htonl 0xc0a80200, mask := makePrefix 24, port := -1 }⟩]]

theorem nodeHistory_parsed : ∀ e ∈ nodeHistory, e.Parsed := by
  intro e he
  simp only [nodeHistory,List.mem_cons,List.not_mem_nil,or_false] at he
  rcases he with rfl | rfl | rfl | rfl | rfl
  · exact ⟨by decide +kernel,by decide +kernel⟩
  · exact ⟨by decide +kernel,by decide +kernel⟩
  · exact ⟨by decide +kernel,by decide +kernel⟩
  · trivial
  · intro c hc
    rw [List.mem_singleton.mp hc]
    exact ⟨by decide +kernel,by decide +kernel⟩

theorem nodeHistory_run : ∃ u out, EventRun.run (step 3) {} nodeHistory = some (u,out) ∧
    (u.push ⟨[],htonl 0xc0a802fe⟩).2 = [(2,⟨[],htonl 0xc0a802fe⟩)] := by
  have hrun : (EventRun.run (step 3) {} nodeHistory).any (fun r =>
      decide ((r.1.push ⟨[],htonl 0xc0a802fe⟩).2 = [(2,⟨[],htonl 0xc0a802fe⟩)])) = true := by decide +kernel
  obtain ⟨⟨u,out⟩,hr,hpush⟩ := (Option.any_eq_true _ _).mp hrun
  exact ⟨u,out,hr,of_decide_eq_true hpush⟩

theorem push_longest_match_sample : ∃ u out, EventRun.run (step 3) {} nodeHistory = some (u,out) ∧
    Forwards (content u.t) ⟨[],htonl 0xc0a802fe⟩ [(2,⟨[],htonl 0xc0a802fe⟩)] := by
  obtain ⟨u,out,hrun,hpush⟩ := nodeHistory_run
  refine ⟨u,out,hrun,?_⟩
  rw [← hpush]
  exact push_longest_match 3 nodeHistory nodeHistory_parsed u out hrun _ (Or.inl (by decide +kernel))

/-- After every such history a group of commands for prefixes is carried out as a whole, or it
fails and no packet notices. -/
theorem ctrlHandler_atomic (noutputs : ℤ) (es : List Event) (hes : ∀ e ∈ es, e.Parsed) (u : LinearIPLookup)
    (out : List (ℤ × Packet)) (hrun : EventRun.run (step noutputs) {} es = some (u,out)) (cs : List Command)
    (hcs : ∀ c ∈ cs, c.Parsed) :
    ((ctrlHandler noutputs u cs).2 = true →
      content (ctrlHandler noutputs u cs).1.t = cs.foldl Command.apply (content u.t)) ∧
    ((ctrlHandler noutputs u cs).2 = false →
      content (ctrlHandler noutputs u cs).1.t = content u.t ∧
        ∀ p : Packet, p.dstIpAnno ≠ 0 → ((ctrlHandler noutputs u cs).1.push p).2 = (u.push p).2) := by
  have hu := run_inv hes hrun
  obtain ⟨hinv,hok,hfail⟩ := ctrlHandler_spec noutputs hu hcs
  refine ⟨hok,fun hfalse => ⟨hfail hfalse,fun p hp => ?_⟩⟩
  have hnew := (push_spec hinv p).2.2 (Or.inl hp)
  rw [hfail hfalse] at hnew
  exact forwards_unique hu.sound hnew ((push_spec hu p).2.2 (Or.inl hp))

/-- A route is removed and another one added before the third command turns out to be wrong. -/
theorem ctrlHandler_atomic_sample : ∃ u out, EventRun.run (step 3) {} nodeHistory = some (u,out) ∧
    ((ctrlHandler 3 u [⟨.remove,{ addr := 0, mask := makePrefix 0, port := -1 }⟩,
      ⟨.add,{ addr := htonl 0xc0a80300, mask := makePrefix 24, port := 1 }⟩,
      ⟨.add,{ addr := htonl 0xc0a80201, mask := makePrefix 32, port := 1 }⟩]).1.push ⟨[],htonl 0xc0a802fe⟩).2 =
      [(2,⟨[],htonl 0xc0a802fe⟩)] := by
  obtain ⟨u,out,hrun,hpush⟩ := nodeHistory_run
  have hfails : (EventRun.run (step 3) {} nodeHistory).any (fun r =>
      !(ctrlHandler 3 r.1 [⟨.remove,{ addr := 0, mask := makePrefix 0, port := -1 }⟩,
        ⟨.add,{ addr := htonl 0xc0a80300, mask := makePrefix 24, port := 1 }⟩,
        ⟨.add,{ addr := htonl 0xc0a80201, mask := makePrefix 32, port := 1 }⟩]).2) = true := by decide +kernel
  rw [hrun,Option.any_some,Bool.not_eq_true'] at hfails
  refine ⟨u,out,hrun,?_⟩
  rw [← hpush]
  refine ((ctrlHandler_atomic 3 nodeHistory nodeHistory_parsed u out hrun _ ?_).2 hfails).2 _ (by decide +kernel)
  intro c hc
  simp only [List.mem_cons,List.not_mem_nil,or_false] at hc
  rcases hc with rfl | rfl | rfl
  · exact ⟨by decide +kernel,by decide +kernel⟩
  · exact ⟨by decide +kernel,by decide +kernel⟩
  · exact ⟨by decide +kernel,by decide +kernel⟩

end History

end ClickMobileIP.LinearIPLookup
