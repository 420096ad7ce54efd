import HuntProxy.Lib.Dict
import HuntProxy.Lib.Ranking
import HuntProxy.Lib.IpText
import Mathlib.Data.List.Pairwise

/-!
# Routes of the web interface

Handlers are registered for a path or for all paths with a beginning, each for one method; the
handler of static files is registered for all methods. The path itself counts more than a
beginning of it, and a longer beginning more than a shorter one. The beginnings are sorted after
each registration, so that the first one that fits is the right one.

## Main definitions

- `Router` — the registered handlers
- `Router.matchHandler` — the handler for a request
- `exactHandler`, `prefixRoutes` — what has been registered, without the sorting

## Main results

- `matchHandler_registered` — the handler is that of the longest beginning
- `matchHandler_perm` — the order of the registrations does not matter
-/

namespace HuntProxy.Web

open Ip (Str)

/-! ### The router -/

/-- A handler for all paths that begin with a text. -/
structure Route (η : Type*) where
  method : Str
  pattern : Str
  handler : η

/-- The routes of a server. -/
structure Router (η : Type*) where
  exacts : Dict (Str × Str) η
  prefixes : List (Route η)

section

variable {η : Type*} (upper : Str → Str)

/-- The length of the beginning. -/
def Route.size (t : Route η) : ℕ := t.pattern.length

/-- The route is for the request. -/
def Route.fits (m path : Str) (t : Route η) : Bool :=
  t.pattern.isPrefixOf path && (decide (t.method = ['*']) || decide (t.method = m))

namespace Router

/-- A router without routes. -/
def empty : Router η := ⟨.empty, []⟩

/-- `add`. -/
def add (r : Router η) (method path : Str) (handler : η) : Router η :=
  { r with exacts := r.exacts.insert (upper method, path) handler }

/-- `add_prefix`. -/
def addPrefix (r : Router η) (method pattern : Str) (handler : η) : Router η :=
  let routes := r.prefixes ++ [⟨upper method, pattern, handler⟩]
  { r with prefixes := routes.insertionSort (Ranking.Falling Route.size) }

/-- `add_static`. -/
def addStatic (r : Router η) (patterns : List Str) (handler : η) : Router η :=
  patterns.foldl (fun r pattern => r.addPrefix upper ['*'] pattern handler) r

/-- `match`. -/
def matchHandler (r : Router η) (method path : Str) : Option η :=
  match r.exacts.get? (upper method, path) with
  | some handler => some handler
  | none => (r.prefixes.find? (Route.fits (upper method) path)).map Route.handler

end Router

/-- A call that registers a handler. -/
inductive Registration (η : Type*)
  | add (method path : Str) (handler : η)
  | addPrefix (method pattern : Str) (handler : η)
  | addStatic (patterns : List Str) (handler : η)

namespace Registration

/-- The call. -/
def run (r : Router η) : Registration η → Router η
  | add method path handler => r.add upper method path handler
  | addPrefix method pattern handler => r.addPrefix upper method pattern handler
  | addStatic patterns handler => r.addStatic upper patterns handler

/-- The router after some calls. -/
def runAll (regs : List (Registration η)) : Router η := regs.foldl (run upper) .empty

/-! ### What is registered -/

/-- The handler for a path itself. -/
def exactHandler (key : Str × Str) : Registration η → Option η
  | add method path handler => if (upper method, path) = key then some handler else none
  | _ => none

/-- The handlers for beginnings. -/
def prefixRoutes : Registration η → List (Route η)
  | add _ _ _ => []
  | addPrefix method pattern handler => [⟨upper method, pattern, handler⟩]
  | addStatic patterns handler => patterns.map (fun pattern => ⟨upper ['*'], pattern, handler⟩)

end Registration

open Registration

/-- The last handler registered for a path itself. -/
def exactHandler (regs : List (Registration η)) (key : Str × Str) : Option η :=
  regs.reverse.findSome? (Registration.exactHandler upper key)

/-- All handlers registered for beginnings. -/
def prefixRoutes (regs : List (Registration η)) : List (Route η) :=
  regs.flatMap (Registration.prefixRoutes upper)

/-! ### The sorted list -/

/-- The sorted list of a router, and the routes in the order of their registration. -/
structure Sorted (r : Router η) (routes : List (Route η)) : Prop where
  falling : r.prefixes.Pairwise (Ranking.Falling Route.size)
  first : ∀ p : Route η → Bool, r.prefixes.find? p = (routes.filter p).argmax Route.size

variable {upper} {r : Router η} {routes : List (Route η)}

theorem Sorted.addPrefix (h : Sorted r routes) (method pattern : Str) (handler : η) :
    Sorted (r.addPrefix upper method pattern handler) (routes ++ [⟨upper method, pattern, handler⟩]) :=
  ⟨List.pairwise_insertionSort _ _,
    fun p => Ranking.find?_insertionSort_concat p h.falling (h.first p) _⟩

theorem Sorted.addStatic (h : Sorted r routes) (patterns : List Str) (handler : η) :
    Sorted (r.addStatic upper patterns handler)
      (routes ++ (Registration.addStatic patterns handler).prefixRoutes upper) := by
  induction patterns generalizing r routes with
  | nil => simpa [Router.addStatic, Registration.prefixRoutes] using h
  | cons pattern patterns ih =>
    have hfirst : Sorted (r.addPrefix upper ['*'] pattern handler)
        (routes ++ [⟨upper ['*'], pattern, handler⟩]) := h.addPrefix ['*'] pattern handler
    have hstep := ih hfirst
    rw [List.append_assoc] at hstep
    exact hstep

theorem exacts_addStatic (patterns : List Str) (handler : η) :
    (r.addStatic upper patterns handler).exacts = r.exacts := by
  induction patterns generalizing r with
  | nil => rfl
  | cons pattern patterns ih => exact ih

theorem Sorted.run (h : Sorted r routes) (reg : Registration η) :
    Sorted (reg.run upper r) (routes ++ reg.prefixRoutes upper) := by
  cases reg with
  | add method path handler =>
    rw [Registration.prefixRoutes, List.append_nil]
    exact ⟨h.falling, h.first⟩
  | addPrefix method pattern handler => exact h.addPrefix method pattern handler
  | addStatic patterns handler => exact h.addStatic patterns handler

theorem get?_run (reg : Registration η) (key : Str × Str) :
    (reg.run upper r).exacts.get? key = (reg.exactHandler upper key).or (r.exacts.get? key) := by
  cases reg with
  | add method path handler =>
    rw [Registration.run, Router.add, Dict.get?_insert, Registration.exactHandler]
    by_cases heq : key = (upper method, path)
    · rw [if_pos heq, if_pos heq.symm]
      rfl
    · rw [if_neg heq, if_neg (Ne.symm heq)]
      rfl
  | addPrefix method pattern handler => rfl
  | addStatic patterns handler =>
    rw [Registration.run, exacts_addStatic]
    rfl

theorem sorted_runAll (regs : List (Registration η)) :
    Sorted (runAll upper regs) (prefixRoutes upper regs) := by
  induction regs using List.reverseRecOn with
  | nil => exact ⟨List.Pairwise.nil, fun p => rfl⟩
  | append_singleton regs reg ih =>
    rw [runAll, List.foldl_concat, prefixRoutes, List.flatMap_append, List.flatMap_singleton]
    exact ih.run reg

theorem get?_runAll (regs : List (Registration η)) (key : Str × Str) :
    (runAll upper regs).exacts.get? key = exactHandler upper regs key := by
  induction regs using List.reverseRecOn with
  | nil => rfl
  | append_singleton regs reg ih =>
    rw [runAll, List.foldl_concat, get?_run, exactHandler, List.reverse_concat, List.findSome?_cons]
    rw [← runAll, ih, exactHandler]
    cases reg.exactHandler upper key <;> rfl

/-- **The handler of a request** is the last one for the path itself; and if there is none, the
first one for the longest of the beginnings that fit. -/
theorem matchHandler_registered (regs : List (Registration η)) (method path : Str) :
    (runAll upper regs).matchHandler upper method path =
      (exactHandler upper regs (upper method, path)).or
        ((((prefixRoutes upper regs).filter (Route.fits (upper method) path)).argmax Route.size).map
          Route.handler) := by
  rw [Router.matchHandler, get?_runAll]
  cases exactHandler upper regs (upper method, path) with
  | some handler => rfl
  | none => rw [(sorted_runAll regs).first]; rfl

/-! ### The order of the registrations -/

namespace Registration

/-- The handler that is registered. -/
def handler : Registration η → η
  | add _ _ handler => handler
  | addPrefix _ _ handler => handler
  | addStatic _ handler => handler

theorem handler_of_exactHandler {reg : Registration η} {key : Str × Str} {handler : η}
    (h : reg.exactHandler upper key = some handler) : handler = reg.handler := by
  cases reg with
  | add method path handler' =>
    rw [Registration.exactHandler] at h
    split at h
    · exact (Option.some.inj h).symm
    · cases h
  | addPrefix method pattern handler' => cases h
  | addStatic patterns handler' => cases h

theorem handler_of_mem_prefixRoutes {reg : Registration η} {t : Route η}
    (h : t ∈ reg.prefixRoutes upper) : t.handler = reg.handler := by
  cases reg with
  | add method path handler => cases h
  | addPrefix method pattern handler =>
    obtain rfl := List.mem_singleton.mp h
    rfl
  | addStatic patterns handler =>
    obtain ⟨pattern, -, rfl⟩ := List.mem_map.mp h
    rfl

variable (upper) in
/-- No request could be for both: the paths differ, or the beginnings or their methods do. -/
structure Apart (reg reg' : Registration η) : Prop where
  exacts : ∀ key, reg.exactHandler upper key = none ∨ reg'.exactHandler upper key = none
  prefixes : ∀ t ∈ reg.prefixRoutes upper, ∀ t' ∈ reg'.prefixRoutes upper, t.pattern = t'.pattern →
    t.method ≠ t'.method ∧ t.method ≠ ['*'] ∧ t'.method ≠ ['*']

instance : Std.Symm (@Apart η upper) where
  symm _ _ h :=
    ⟨fun key => (h.exacts key).symm, fun t ht t' ht' heq =>
      have hne := h.prefixes t' ht' t ht heq.symm
      ⟨hne.1.symm, hne.2.2, hne.2.1⟩⟩

end Registration

section

variable {regs regs' : List (Registration η)}

/-- Without collisions the handler for a path is that of any registration for it. -/
theorem exactHandler_eq_some_iff (h : regs.Pairwise (Registration.Apart upper)) {key : Str × Str}
    {handler : η} : exactHandler upper regs key = some handler ↔
      ∃ reg ∈ regs, reg.exactHandler upper key = some handler := by
  constructor
  · intro hfind
    obtain ⟨reg, hmem, hreg⟩ := List.exists_of_findSome?_eq_some hfind
    exact ⟨reg, List.mem_reverse.mp hmem, hreg⟩
  · rintro ⟨reg, hmem, hreg⟩
    cases hfind : exactHandler upper regs key with
    | none =>
      rw [exactHandler, List.findSome?_eq_none_iff] at hfind
      rw [hfind reg (List.mem_reverse.mpr hmem)] at hreg
      cases hreg
    | some handler' =>
      obtain ⟨reg', hmem', hreg'⟩ := List.exists_of_findSome?_eq_some hfind
      by_cases heq : reg = reg'
      · rw [handler_of_exactHandler hreg, handler_of_exactHandler hreg', heq]
      · rcases (h.forall hmem (List.mem_reverse.mp hmem') heq).exacts key with
          hnone | hnone
        · rw [hnone] at hreg
          cases hreg
        · rw [hnone] at hreg'
          cases hreg'

/-- Two routes of one size that fit a request are of one registration. -/
theorem handler_eq_of_fits (h : regs.Pairwise (Registration.Apart upper)) {m path : Str}
    {t t' : Route η} (ht : t ∈ prefixRoutes upper regs) (ht' : t' ∈ prefixRoutes upper regs)
    (hfits : t.fits m path = true) (hfits' : t'.fits m path = true) (hsize : t.size = t'.size) :
    t.handler = t'.handler := by
  obtain ⟨reg, hreg, hmem⟩ := List.mem_flatMap.mp ht
  obtain ⟨reg', hreg', hmem'⟩ := List.mem_flatMap.mp ht'
  rw [handler_of_mem_prefixRoutes hmem, handler_of_mem_prefixRoutes hmem']
  by_contra hne
  have hapart := h.forall hreg hreg' (fun heq => hne (by rw [heq]))
  rw [Route.fits, Bool.and_eq_true, List.isPrefixOf_iff_prefix] at hfits hfits'
  have hpattern : t.pattern = t'.pattern :=
    (List.prefix_of_prefix_length_le hfits.1 hfits'.1 hsize.le).eq_of_length hsize
  obtain ⟨hmethod, hstar, hstar'⟩ := hapart.prefixes t hmem t' hmem' hpattern
  have hm : t.method = m := by simpa [hstar] using hfits.2
  have hm' : t'.method = m := by simpa [hstar'] using hfits'.2
  exact hmethod (hm.trans hm'.symm)

/-- **The order of the registrations does not matter**, as long as none collide. -/
theorem matchHandler_perm (hperm : regs.Perm regs') (h : regs.Pairwise (Registration.Apart upper))
    (method path : Str) :
    (runAll upper regs).matchHandler upper method path =
      (runAll upper regs').matchHandler upper method path := by
  have h' : regs'.Pairwise (Registration.Apart upper) :=
    hperm.pairwise h (fun hab => Std.Symm.symm _ _ hab)
  have hexact : exactHandler upper regs (upper method, path) =
      exactHandler upper regs' (upper method, path) := by
    ext handler
    simp only [exactHandler_eq_some_iff h, exactHandler_eq_some_iff h', hperm.mem_iff]
  have hroutes : ∀ t, t ∈ prefixRoutes upper regs ↔ t ∈ prefixRoutes upper regs' := fun t =>
    (hperm.flatMap_right _).mem_iff
  rw [matchHandler_registered, matchHandler_registered, hexact]
  congr 1
  cases hbest : ((prefixRoutes upper regs).filter (Route.fits (upper method) path)).argmax
      Route.size with
  | none =>
    rw [List.argmax_eq_none, List.filter_eq_nil_iff] at hbest
    have hnil : (prefixRoutes upper regs').filter (Route.fits (upper method) path) = [] :=
      List.filter_eq_nil_iff.mpr (fun t ht => hbest t ((hroutes t).mpr ht))
    rw [hnil, List.argmax_nil]
  | some t =>
    obtain ⟨hmem, hfits⟩ := List.mem_filter.mp (List.argmax_mem hbest)
    have hmem' := List.mem_filter.mpr ⟨(hroutes t).mp hmem, hfits⟩
    cases hbest' : ((prefixRoutes upper regs').filter (Route.fits (upper method) path)).argmax
        Route.size with
    | none =>
      rw [List.argmax_eq_none] at hbest'
      rw [hbest'] at hmem'
      cases hmem'
    | some t' =>
      obtain ⟨hin, hfits'⟩ := List.mem_filter.mp (List.argmax_mem hbest')
      have hsize : t.size = t'.size := by
        refine le_antisymm (List.le_of_mem_argmax hmem' hbest') (List.le_of_mem_argmax ?_ hbest)
        exact List.mem_filter.mpr ⟨(hroutes t').mpr hin, hfits'⟩
      exact congrArg some (handler_eq_of_fits h hmem ((hroutes t').mpr hin) hfits hfits' hsize)

end

end

/-- Two beginnings of which one is longer. -/
def clientRoutes : List (Registration ℕ) :=
  [.addPrefix "GET".toList "/api/clients".toList 0, .addPrefix "GET".toList "/api/clients/".toList 1]

theorem matchHandler_perm_clients :
    (Registration.runAll id clientRoutes).matchHandler id "GET".toList
        "/api/clients/10.0.0.1".toList =
      (Registration.runAll id clientRoutes.reverse).matchHandler id "GET".toList
        "/api/clients/10.0.0.1".toList := by
  refine matchHandler_perm (List.reverse_perm clientRoutes).symm ?_ _ _
  refine List.pairwise_pair.mpr ⟨fun key => .inl rfl, fun t ht t' ht' heq => ?_⟩
  rw [List.mem_singleton.mp ht, List.mem_singleton.mp ht'] at heq
  exact absurd heq (by decide)

end HuntProxy.Web
