import Mathlib.Data.Prod.Lex
import V4WithV6Nh.HostIdempotence
import V4WithV6Nh.LastMaximum

/-!
# Which Router `select_router` Returns

`select_router` goes through the IPv6 default routes out of the interface and keeps the
one with the largest pair of preference rank and being REACHABLE, where a later route
wins a tie. So it returns the *last maximum* of the routers it looks at, which are
`routers`.

The pair tells REACHABLE from everything else and nothing more. A STALE backup router
and a FAILED router of the same preference tie, and then the order of the dump decides.
And an ECMP route, which has no output interface and no gateway of its own, is no router
at all for it.

## Main results

* `selectRouter_eq`: the router that is returned, as a last maximum.
* `failsOver_iff`: the exact condition under which no dead router is returned and kept
  while another of the highest preference is usable.
* `orderFree_iff`: the result depends on the order of the dump unless no two routers tie
  for the maximal pair.
* `followsRouters_iff`: a router is found exactly when there is none or one of the next
  hops is encoded at top level.
-/

namespace V4WithV6Nh.HostDaemon

open Interface

/-! ### The routers of a dump -/

section Selection

variable {env : Env} {i : Interface} {w : World} {gw : IPv6}

/-- The NUD state of `gw` on the interface, 0 (NONE) if the cache has no entry. -/
def Interface.stateOf (env : Env) (i : Interface) (gw : IPv6) : ℕ :=
  ((i.neighbour env gw).map Neigh6.state).getD 0

/-- A router that `select_router` looks at: its gateway, and the pair by which it is
compared. -/
abbrev Ranked := IPv6 × (ℕ ×ₗ ℕ)

/-- The gateway of a default route with its pair, if the route has a gateway. -/
def Interface.rank (env : Env) (i : Interface) (r : Route6) : Option Ranked :=
  r.gateway.map fun gw =>
    (gw, toLex (prefRank r.pref, if i.stateOf env gw = 0x02 then 1 else 0))

/-- The routers that `select_router` looks at, in dump order. -/
def Interface.routers (env : Env) (i : Interface) : List Ranked :=
  (i.defaultRoutes6 env).filterMap (i.rank env)

/-- When the calls succeed, a NUD state is read as it is. -/
theorem nudState_of_noFaults (hf : NoFaults env) (c : Call) (gw : IPv6) :
    i.nudState env c gw = i.stateOf env gw := by
  rw [nudState, hf, stateOf]

/-- One round of the loop, as a round of `keepLast`. -/
theorem consider_eq (hf : NoFaults env) (best : Option Ranked) (r : Route6) (k : ℕ) :
    i.consider env (best.map fun a => (a.1, ofLex a.2)) (r, k) =
      ((i.rank env r).elim best (keepLast Prod.snd best)).map fun a => (a.1, ofLex a.2) := by
  simp only [consider, rank, routerKey, nudState_of_noFaults hf]
  cases r.gateway with
  | none => rfl
  | some gw =>
      cases best with
      | none => rfl
      | some b =>
          simp only [Option.map_some, Option.elim_some, keepLast, Prod.Lex.le_iff, ofLex_toLex,
            apply_ite (Option.map _)]

/-- The loop over the routes, as a loop over the routers. -/
theorem foldl_consider (hf : NoFaults env) (l : List Route6) (best : Option Ranked) (k : ℕ) :
    (l.zipIdx k).foldl (i.consider env) (best.map fun a => (a.1, ofLex a.2)) =
      ((l.filterMap (i.rank env)).foldl (keepLast Prod.snd) best).map
        fun a => (a.1, ofLex a.2) := by
  induction l generalizing best k with
  | nil => rfl
  | cons r l ih =>
      rw [List.zipIdx_cons, List.foldl_cons, consider_eq hf]
      cases hr : i.rank env r with
      | none =>
          rw [List.filterMap_cons_none hr]
          exact ih best (k + 1)
      | some a =>
          rw [List.filterMap_cons_some hr, List.foldl_cons]
          exact ih (keepLast Prod.snd best a) (k + 1)

/-- **`select_router` returns the last maximum** of the routers it looks at. -/
theorem selectRouter_eq (hf : NoFaults env) :
    i.selectRouter env = .ok ((lastMax Prod.snd (i.routers env)).map Prod.fst) := by
  have hfold := foldl_consider (i := i) hf (i.defaultRoutes6 env) none 0
  rw [Option.map_none] at hfold
  simp only [selectRouter, hf _, hfold, lastMax, routers, Option.map_map]
  rfl

/-- The router that is returned is one of those looked at, and none of them is
preferred to it. -/
theorem selectRouter_some_iff (hf : NoFaults env) :
    i.selectRouter env = .ok (some gw) ↔
      ∃ key, IsLastMax Prod.snd (i.routers env) (gw, key) := by
  rw [selectRouter_eq hf, Except.ok.injEq, Option.map_eq_some_iff]
  constructor
  · rintro ⟨⟨gw', key⟩, hlast, rfl⟩
    exact ⟨key, lastMax_eq_some_iff.mp hlast⟩
  · rintro ⟨key, hlast⟩
    exact ⟨(gw, key), lastMax_eq_some_iff.mpr hlast, rfl⟩

/-- A router that is looked at, by the route it comes from. -/
theorem mem_routers_iff {a : Ranked} :
    a ∈ i.routers env ↔ ∃ r ∈ env.routes6, (r.dstLen = 0 ∧ r.oif = i.index) ∧
      i.rank env r = some a := by
  simp only [routers, List.mem_filterMap, defaultRoutes6, List.mem_filter, decide_eq_true_eq,
    and_assoc]

/-- The second part of a router's pair says whether it is REACHABLE. -/
theorem reachable_of_mem_routers {a : Ranked} (ha : a ∈ i.routers env) :
    (ofLex a.2).2 = if i.stateOf env a.1 = 0x02 then 1 else 0 := by
  obtain ⟨r, -, -, hr⟩ := mem_routers_iff.mp ha
  obtain ⟨gw, -, rfl⟩ := Option.map_eq_some_iff.mp hr
  rfl

end Selection

/-! ### Failing over -/

section Failover

variable {env : Env} {i : Interface} {w : World} {gw : IPv6}

/-- The neighbour entry of `gw` is absent (NONE), INCOMPLETE or FAILED. -/
def Dead (env : Env) (i : Interface) (gw : IPv6) : Prop :=
  i.stateOf env gw ∈ [0x00, 0x01, 0x20]

/-- The routers of the highest preference, in dump order. -/
def Interface.topRouters (env : Env) (i : Interface) : List Ranked :=
  (i.routers env).filter fun a =>
    (i.routers env).all fun b => decide ((ofLex b.2).1 ≤ (ofLex a.2).1)

/-- A router of the highest preference is in a state that is usable. -/
def HasUsable (env : Env) (i : Interface) : Prop :=
  ∃ a ∈ i.topRouters env, nudUsable (i.stateOf env a.1) = true

/-- The pass follows `gw`, and remembers it afterwards: as the gateway of the route, which the
daemon does not read back, or in static mode by its MAC, if that is known, with the neighbour
entry in place. -/
def MovesTo (env : Env) (i : Interface) (w : World) (gw : IPv6) : Prop :=
  Follows env i w.tables gw ∧
    Settled env (i.reconcile env w).2.1 gw (i.reconcile env w).2.2.tables

/-- `select_router` returns no dead router while one of the highest preference is usable,
and a pass moves from a dead router to one that is not dead. -/
def FailsOver (env : Env) (i : Interface) : Prop :=
  (∀ gw, (i.resolveIndex env).selectRouter env = .ok (some gw) →
    HasUsable env (i.resolveIndex env) → ¬ Dead env (i.resolveIndex env) gw) ∧
  ∀ w gw, (i.resolveIndex env).index.isSome →
    (i.resolveIndex env).gate env w.tables = .ok true →
    Dead env (i.resolveIndex env) gw → HasUsable env (i.resolveIndex env) →
    ∃ gw', gw' ≠ gw ∧ ¬ Dead env (i.resolveIndex env) gw' ∧ MovesTo env i w gw'

/-- If a router of the highest preference is usable, one is REACHABLE, or the last one of
the dump is not dead. -/
def LastAlive (env : Env) (i : Interface) : Prop :=
  HasUsable env i →
    (∃ a ∈ i.topRouters env, i.stateOf env a.1 = 0x02) ∨
    ∀ a, (i.topRouters env).getLast? = some a → ¬ Dead env i a.1

/-- A REACHABLE router is not dead. -/
theorem not_dead_of_reachable (h : i.stateOf env gw = 0x02) : ¬ Dead env i gw := by
  rw [Dead, h]
  decide

/-- A router is of the highest preference if no router has a higher one. -/
theorem mem_topRouters_iff {a : Ranked} : a ∈ i.topRouters env ↔
    a ∈ i.routers env ∧ ∀ b ∈ i.routers env, (ofLex b.2).1 ≤ (ofLex a.2).1 := by
  simp only [topRouters, List.mem_filter, List.all_eq_true, decide_eq_true_eq]

/-- A maximal router is of the highest preference. -/
theorem mem_topRouters_of_maximal {a : Ranked} (h : Maximal Prod.snd (i.routers env) a) :
    a ∈ i.topRouters env := by
  refine mem_topRouters_iff.mpr ⟨h.1, fun b hb => ?_⟩
  rcases Prod.Lex.le_iff.mp (h.2 b hb) with hlt | ⟨heq, -⟩
  · exact hlt.le
  · exact heq.le

/-- Among routers of the highest preference, the pair compares whether they are
REACHABLE. -/
theorem le_iff_of_top {a b : Ranked} (ha : a ∈ i.topRouters env) (hb : b ∈ i.topRouters env) :
    b.2 ≤ a.2 ↔ (i.stateOf env b.1 = 0x02 → i.stateOf env a.1 = 0x02) := by
  have hrank : (ofLex b.2).1 = (ofLex a.2).1 :=
    le_antisymm ((mem_topRouters_iff.mp ha).2 b (mem_topRouters_iff.mp hb).1)
      ((mem_topRouters_iff.mp hb).2 a (mem_topRouters_iff.mp ha).1)
  rw [Prod.Lex.le_iff, hrank, reachable_of_mem_routers (mem_topRouters_iff.mp ha).1,
    reachable_of_mem_routers (mem_topRouters_iff.mp hb).1]
  by_cases ha₂ : i.stateOf env a.1 = 0x02
  · by_cases hb₂ : i.stateOf env b.1 = 0x02
    · simp [ha₂, hb₂]
    · simp [ha₂, hb₂]
  · by_cases hb₂ : i.stateOf env b.1 = 0x02
    · simp [ha₂, hb₂]
    · simp [ha₂, hb₂]

/-- If a router of the highest preference is REACHABLE, the one that is selected is. -/
theorem reachable_of_isLastMax {a b : Ranked} (h : IsLastMax Prod.snd (i.routers env) a)
    (hb : b ∈ i.topRouters env) (hreachable : i.stateOf env b.1 = 0x02) :
    i.stateOf env a.1 = 0x02 := by
  have ha := mem_topRouters_of_maximal h.maximal
  exact (le_iff_of_top ha hb).mp (h.maximal.2 b (mem_topRouters_iff.mp hb).1) hreachable

/-- If none is REACHABLE, the one that is selected is the last of the dump. -/
theorem getLast?_of_isLastMax {a : Ranked} (h : IsLastMax Prod.snd (i.routers env) a)
    (hnone : ∀ b ∈ i.topRouters env, i.stateOf env b.1 ≠ 0x02) :
    (i.topRouters env).getLast? = some a := by
  have ha := mem_topRouters_of_maximal h.maximal
  obtain ⟨l₁, l₂, hl, hbefore, hafter⟩ := h
  -- whatever comes after `a` has a smaller pair, so it is of a lower preference
  have hlow : ∀ b ∈ l₂, b ∉ i.topRouters env := by
    intro b hb htop
    have hle : a.2 ≤ b.2 := (le_iff_of_top htop ha).mpr fun h => absurd h (hnone a ha)
    exact absurd (hafter b hb) (not_lt.mpr hle)
  rw [topRouters] at ha hlow ⊢
  rw [hl] at ha hlow ⊢
  refine getLast?_filter_append_cons (List.mem_filter.mp ha).2 fun b hb => ?_
  by_contra htrue
  exact hlow b hb (List.mem_filter.mpr ⟨List.mem_append_right l₁ (List.mem_cons_of_mem a hb),
    (Bool.not_eq_false _).mp htrue⟩)

/-- If there is a router of the highest preference, one is selected. -/
theorem exists_isLastMax_of_hasUsable (h : HasUsable env i) :
    ∃ a, IsLastMax Prod.snd (i.routers env) a := by
  obtain ⟨b, hb, -⟩ := h
  obtain ⟨a, -, hlast⟩ := exists_lastMax Prod.snd
    (List.ne_nil_of_mem (mem_topRouters_iff.mp hb).1)
  exact ⟨a, hlast⟩

/-- No dead router is selected exactly if the last one of the dump is not dead where it
counts. -/
theorem selects_alive_iff (hf : NoFaults env) :
    (∀ gw, i.selectRouter env = .ok (some gw) → HasUsable env i → ¬ Dead env i gw) ↔
      LastAlive env i := by
  constructor
  · intro h husable
    by_cases hreachable : ∃ a ∈ i.topRouters env, i.stateOf env a.1 = 0x02
    · exact Or.inl hreachable
    · refine Or.inr fun a ha => ?_
      obtain ⟨b, hlast⟩ := exists_isLastMax_of_hasUsable husable
      have hb := getLast?_of_isLastMax hlast fun b hb h => hreachable ⟨b, hb, h⟩
      obtain rfl : b = a := Option.some.inj (hb.symm.trans ha)
      exact h b.1 ((selectRouter_some_iff hf).mpr ⟨b.2, hlast⟩) husable
  · intro h gw hselect husable
    obtain ⟨key, hlast⟩ := (selectRouter_some_iff hf).mp hselect
    by_cases hreachable : ∃ a ∈ i.topRouters env, i.stateOf env a.1 = 0x02
    · obtain ⟨b, hb, hstate⟩ := hreachable
      exact not_dead_of_reachable (reachable_of_isLastMax hlast hb hstate)
    · have hb := getLast?_of_isLastMax hlast fun b hb h => hreachable ⟨b, hb, h⟩
      exact (h husable).resolve_left hreachable (gw, key) hb

/-- **The exact condition for failing over.** -/
theorem failsOver_iff (hf : NoFaults env) :
    FailsOver env i ↔ LastAlive env (i.resolveIndex env) := by
  rw [FailsOver, selects_alive_iff hf]
  refine and_iff_left_of_imp fun h => ?_
  intro w gw hindex hgate hdead husable
  obtain ⟨a, hlast⟩ := exists_isLastMax_of_hasUsable husable
  have hselect := (selectRouter_some_iff hf).mpr ⟨a.2, hlast⟩
  have halive := (selects_alive_iff hf).mpr h a.1 hselect husable
  have hfollows : Follows env i w.tables a.1 := ⟨hf _, hindex, hgate, hselect⟩
  refine ⟨a.1, fun heq => halive (heq ▸ hdead), halive, hfollows, ?_⟩
  rw [reconcile_of_follows hfollows]
  exact settled_install (fun c _ _ => hf c) hindex

end Failover

/-- A second router on the link of `eth0`. -/
def router₁ : IPv6 := 0xfe800000000000000000000000000009#128

/-- Two routers of the same preference on the link of `eth0`, with their NUD states. -/
def twoRouters (state₀ state₁ : ℕ) : Env :=
  { twoLinks with
    routes6 := [⟨0, none, some 3, some router₀, none, []⟩,
      ⟨0, none, some 3, some router₁, none, []⟩]
    neigh6 := [⟨3, some router₀, none, state₀⟩, ⟨3, some router₁, none, state₁⟩] }

instance (env : Env) (i : Interface) (gw : IPv6) : Decidable (Dead env i gw) :=
  inferInstanceAs (Decidable (_ ∈ _))

instance (env : Env) (i : Interface) : Decidable (HasUsable env i) :=
  inferInstanceAs (Decidable (∃ a ∈ _, _))

/-- A FAILED router that precedes a STALE one in the dump is left. -/
theorem failsOver_last_stale : FailsOver (twoRouters 0x20 0x04) eth0 := by
  refine (failsOver_iff fun _ => rfl).mpr fun _ => Or.inr fun a ha => ?_
  have hlast : (((eth0.resolveIndex (twoRouters 0x20 0x04)).topRouters
      (twoRouters 0x20 0x04)).getLast?).map Prod.fst = some router₁ := by decide
  rw [ha, Option.map_some, Option.some.injEq] at hlast
  rw [hlast]
  decide

/-- **A FAILED router that follows a STALE one is kept**: it is selected, and a pass of a
daemon that uses it goes on using it. -/
theorem failed_router_kept :
    ¬ FailsOver (twoRouters 0x04 0x20) eth0 ∧
      Follows (twoRouters 0x04 0x20) { eth0 with installedVia := some router₁ } leased.tables
        router₁ ∧
      ({ eth0 with installedVia := some router₁ }.reconcile (twoRouters 0x04 0x20)
        leased).2.1.installedVia = some router₁ := by
  refine ⟨fun h => ?_, ⟨rfl, rfl, rfl, by decide⟩, by decide⟩
  exact h.1 router₁ (by decide) (by decide) (by decide)

/-! ### The order of the dump -/

section Order

variable {env : Env} {i : Interface} {l : List Route6} {gw : IPv6}

/-- The same kernel state with another dump of the IPv6 routes. -/
def Env.dump (env : Env) (l : List Route6) : Env := { env with routes6 := l }

/-- Every permutation of the dump selects the same router, which is the one of lowest
address among those with the maximal pair. -/
def OrderFree (env : Env) (i : Interface) : Prop :=
  (∀ l l', l.Perm env.routes6 → l'.Perm env.routes6 →
    i.selectRouter (env.dump l) = i.selectRouter (env.dump l')) ∧
  ∀ l gw, l.Perm env.routes6 → i.selectRouter (env.dump l) = .ok (some gw) →
    ∃ key, Maximal Prod.snd (i.routers env) (gw, key) ∧
      ∀ b, Maximal Prod.snd (i.routers env) b → gw ≤ b.1

/-- No two routers tie for the maximal pair. -/
def NoTie (env : Env) (i : Interface) : Prop :=
  ∀ a b, Maximal Prod.snd (i.routers env) a → Maximal Prod.snd (i.routers env) b → a = b

/-- Permuting the dump permutes the routers. -/
theorem routers_perm (h : l.Perm env.routes6) :
    (i.routers env).Perm (i.routers (env.dump l)) := by
  have hfilter := h.symm.filter fun r => decide (r.dstLen = 0 ∧ r.oif = i.index)
  exact hfilter.filterMap (i.rank env)

/-- The routers of two dumps in a row. -/
theorem routers_dump_append (l₁ l₂ : List Route6) : i.routers (env.dump (l₁ ++ l₂)) =
    i.routers (env.dump l₁) ++ i.routers (env.dump l₂) := by
  simp only [routers, defaultRoutes6, Env.dump, List.filter_append, List.filterMap_append]
  rfl

/-- The router of one route. -/
theorem routers_dump_singleton {r : Route6} {a : Ranked}
    (hdefault : r.dstLen = 0 ∧ r.oif = i.index) (hrank : i.rank env r = some a) :
    i.routers (env.dump [r]) = [a] := by
  have hrank' : i.rank (env.dump [r]) r = some a := hrank
  simp only [routers, defaultRoutes6, Env.dump, List.filter_cons, decide_eq_true hdefault,
    if_true, List.filter_nil]
  exact List.filterMap_cons_some hrank'

/-- **Whatever the order of the dump**, the router that is selected has the maximal pair. -/
theorem maximal_of_selectRouter (hf : NoFaults env) (hl : l.Perm env.routes6)
    (h : i.selectRouter (env.dump l) = .ok (some gw)) :
    ∃ key, Maximal Prod.snd (i.routers env) (gw, key) := by
  have hf' : NoFaults (env.dump l) := hf
  obtain ⟨key, hlast⟩ := (selectRouter_some_iff hf').mp h
  exact ⟨key, hlast.maximal.perm (routers_perm hl).symm⟩

/-- Every router with the maximal pair is selected from some permutation of the dump: the
one with its route at the end. -/
theorem exists_perm_selecting (hf : NoFaults env) {a : Ranked}
    (ha : Maximal Prod.snd (i.routers env) a) :
    ∃ l, l.Perm env.routes6 ∧ i.selectRouter (env.dump l) = .ok (some a.1) := by
  obtain ⟨r, hr, hdefault, hrank⟩ := mem_routers_iff.mp ha.1
  have hperm : (env.routes6.erase r ++ [r]).Perm env.routes6 :=
    List.perm_append_comm.trans (List.perm_cons_erase hr).symm
  have hrouters : i.routers (env.dump (env.routes6.erase r ++ [r])) =
      i.routers (env.dump (env.routes6.erase r)) ++ [a] := by
    rw [routers_dump_append, routers_dump_singleton hdefault hrank]
  have hf' : NoFaults (env.dump (env.routes6.erase r ++ [r])) := hf
  refine ⟨_, hperm, ?_⟩
  have hmax := ha.perm (routers_perm hperm)
  rw [hrouters] at hmax
  have hle : ∀ b ∈ i.routers (env.dump (env.routes6.erase r)), b.2 ≤ a.2 :=
    fun b hb => hmax.2 b (List.mem_append_left _ hb)
  rw [selectRouter_eq hf', hrouters, lastMax_append_of_maximal hle]
  rfl

/-- **The exact condition for a selection that does not depend on the order**: no two
routers tie for the maximal pair. -/
theorem orderFree_iff (hf : NoFaults env) : OrderFree env i ↔ NoTie env i := by
  constructor
  · intro h a b ha hb
    obtain ⟨l, hl, hla⟩ := exists_perm_selecting hf ha
    obtain ⟨l', hl', hlb⟩ := exists_perm_selecting hf hb
    have hgw := hla.symm.trans ((h.1 l l' hl hl').trans hlb)
    rw [Except.ok.injEq, Option.some.injEq] at hgw
    exact Prod.ext hgw (le_antisymm (hb.2 a ha.1) (ha.2 b hb.1))
  · intro h
    have hsame : ∀ l, l.Perm env.routes6 →
        i.selectRouter (env.dump l) = i.selectRouter env := by
      intro l hl
      have hf' : NoFaults (env.dump l) := hf
      rw [selectRouter_eq hf', selectRouter_eq hf, lastMax_eq_of_sole (routers_perm hl) h]
    refine ⟨fun l l' hl hl' => (hsame l hl).trans (hsame l' hl').symm, fun l gw hl hgw => ?_⟩
    obtain ⟨key, hmax⟩ := maximal_of_selectRouter hf hl hgw
    refine ⟨key, hmax, fun b hb => ?_⟩
    rw [← h _ _ hmax hb]
    exact BitVec.le_refl gw

end Order

/-- `eth0` with its index. -/
def eth0Up : Interface := { eth0 with index := some 3 }

/-- With one REACHABLE router the order of the dump does not matter. -/
theorem orderFree_one_reachable : OrderFree (twoRouters 0x02 0x04) eth0Up := by
  refine (orderFree_iff fun _ => rfl).mpr fun a b ha hb => ?_
  have hsole : ∀ a ∈ eth0Up.routers (twoRouters 0x02 0x04),
      (∀ b ∈ eth0Up.routers (twoRouters 0x02 0x04), b.2 ≤ a.2) → a = (router₀, toLex (1, 1)) := by
    decide
  rw [hsole a ha.1 ha.2, hsole b hb.1 hb.2]

/-- **Two STALE routers of the same preference tie**: the later one of the dump is selected,
whichever it is, so its address need not be the lowest. -/
theorem stale_routers_tie :
    ¬ OrderFree (twoRouters 0x04 0x04) eth0Up ∧
      eth0Up.selectRouter (twoRouters 0x04 0x04) = .ok (some router₁) ∧
      eth0Up.selectRouter ((twoRouters 0x04 0x04).dump (twoRouters 0x04 0x04).routes6.reverse) =
        .ok (some router₀) := by
  refine ⟨fun h => ?_, by decide, by decide⟩
  have hsame := h.1 _ _ (.refl _) (List.reverse_perm _)
  revert hsame
  decide

/-! ### Multipath routes -/

section Multipath

variable {env : Env} {i : Interface} {idx : ℕ} {gw : IPv6}

/-- The next hops of a route: its own, or those of an ECMP route, which has no output
interface of its own. -/
def nextHops (r : Route6) : List NextHop :=
  match r.oif with
  | some idx => [⟨idx, r.gateway⟩]
  | none => r.multipath

/-- Some default route has a next hop with a gateway on the interface. -/
def HasRouter (env : Env) (idx : ℕ) : Prop :=
  ∃ r ∈ env.routes6, r.dstLen = 0 ∧ ∃ h ∈ nextHops r, h.oif = idx ∧ h.gateway.isSome

/-- Some default route has it at top level. -/
def HasOwnRouter (env : Env) (idx : ℕ) : Prop :=
  ∃ r ∈ env.routes6, r.dstLen = 0 ∧ r.oif = some idx ∧ r.gateway.isSome

/-- If there is a router, `select_router` returns one, and a pass that finds the sentinel
follows it. -/
def FollowsRouters (env : Env) (i : Interface) (idx : ℕ) : Prop :=
  HasRouter env idx →
    (∃ gw, (i.resolveIndex env).selectRouter env = .ok (some gw)) ∧
    ∀ w, (i.resolveIndex env).gate env w.tables = .ok true →
      ∃ gw, i.reconcile env w = (.ok (), (i.resolveIndex env).install env gw
        ((i.resolveIndex env).solicit env gw w))

/-- A router is selected exactly if a default route has one at top level. -/
theorem selectRouter_isSome_iff (hf : NoFaults env) (hindex : i.index = some idx) :
    (∃ gw, i.selectRouter env = .ok (some gw)) ↔ HasOwnRouter env idx := by
  have hrouters : HasOwnRouter env idx ↔ ∃ a, a ∈ i.routers env := by
    simp only [HasOwnRouter, mem_routers_iff, rank, Option.map_eq_some_iff, hindex]
    constructor
    · rintro ⟨r, hr, hlen, hoif, hgw⟩
      obtain ⟨gw, hgw⟩ := Option.isSome_iff_exists.mp hgw
      exact ⟨_, r, hr, ⟨hlen, hoif⟩, gw, hgw, rfl⟩
    · rintro ⟨a, r, hr, ⟨hlen, hoif⟩, gw, hgw, -⟩
      exact ⟨r, hr, hlen, hoif, Option.isSome_iff_exists.mpr ⟨gw, hgw⟩⟩
  rw [hrouters]
  constructor
  · rintro ⟨gw, h⟩
    obtain ⟨key, hlast⟩ := (selectRouter_some_iff hf).mp h
    exact ⟨(gw, key), hlast.maximal.1⟩
  · rintro ⟨a, ha⟩
    obtain ⟨b, -, hlast⟩ := exists_lastMax Prod.snd (List.ne_nil_of_mem ha)
    exact ⟨b.1, (selectRouter_some_iff hf).mpr ⟨b.2, hlast⟩⟩

/-- **The exact condition for finding a router where there is one**: one of them is encoded
at top level. -/
theorem followsRouters_iff (hf : NoFaults env) (hidx : linkLookup env.links i.name = some idx) :
    FollowsRouters env i idx ↔ (HasRouter env idx → HasOwnRouter env idx) := by
  have hindex : (i.resolveIndex env).index = some idx := hidx
  refine imp_congr_right fun _ => ?_
  rw [← selectRouter_isSome_iff hf hindex]
  refine and_iff_left_of_imp ?_
  rintro ⟨gw, hselect⟩ w hgate
  exact ⟨gw, reconcile_of_follows ⟨hf _, by rw [hindex]; rfl, hgate, hselect⟩⟩

end Multipath

/-- A default route with its router at top level. -/
def ownDefault : Route6 := ⟨0, none, some 3, some router₀, none, []⟩

/-- A router of each interface in one ECMP route, and others at top level. -/
def mixedDump : Env :=
  { twoLinks with
    routes6 := [⟨0, none, none, none, none, [⟨4, some router₀⟩, ⟨3, some router₁⟩]⟩,
      ⟨0, none, some 4, some router₁, none, []⟩, ⟨64, none, some 3, none, none, []⟩, ownDefault] }

/-- The router at top level is followed, also when a member of the ECMP route was. -/
theorem followsRouters_mixedDump :
    FollowsRouters mixedDump { eth0 with installedVia := some router₁ } 3 :=
  (followsRouters_iff (fun _ => rfl) rfl).mpr fun _ =>
    ⟨ownDefault, by simp [mixedDump], rfl, rfl, rfl⟩

/-- Both routers as members of one ECMP route. -/
def ecmp : Env :=
  { twoLinks with
    routes6 := [⟨0, none, none, none, none, [⟨3, some router₀⟩, ⟨3, some router₁⟩]⟩] }

/-- **An ECMP default is no router**: a daemon that had installed the route through one of
its members withdraws it. -/
theorem ecmp_withdraws :
    ¬ FollowsRouters ecmp eth0 3 ∧
      (({ eth0 with installedVia := some router₀ }.reconcile ecmp leased).2.1.installedVia =
        none) := by
  refine ⟨fun h => ?_, by decide⟩
  obtain ⟨⟨gw, hgw⟩, -⟩ := h ⟨_, List.mem_cons_self, rfl, ⟨3, some router₀⟩, by decide, rfl, rfl⟩
  cases hgw

end V4WithV6Nh.HostDaemon
