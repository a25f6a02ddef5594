import StationProcessor.Diskloop.Context
import StationProcessor.MapRuns

/-!
# Closing all disk loops

`adl_close_all` of `lib/disklooplib.c` on the map `pDiskLoops` of the open contexts, which every
`adl_close` removes its context from. All are closed exactly when no two of them share a bucket.
-/

namespace StationProcessor

open Assoc

variable {n : ℕ} {plat : MapPlatform}

/-- `close_callback`, with the files each context leaves. -/
def closeCallback (now : Bytes → Timeval × Timeval) (closed : List (Bytes × ChannelFiles))
    (key : Bytes) (ctx : DiskloopContext n) :
    List (Bytes × ChannelFiles) × Option (DiskloopContext n) :=
  (closed ++ [(key, adlClose ctx (now key).1 (now key).2)], none)

/-- `adl_close_all`. -/
def adlCloseAll (plat : MapPlatform) (now : Bytes → Timeval × Timeval)
    (loops : Map (DiskloopContext n)) :
    Except Violation (Map (DiskloopContext n) × List (Bytes × ChannelFiles)) := do
  let (loops, closed, _) ← mapEnum plat (closeCallback now) loops []
  return (loops, closed)

/-- Every open context is closed once, and the map is empty afterwards. -/
def ClosesAll (plat : MapPlatform) (now : Bytes → Timeval × Timeval)
    (loops : Map (DiskloopContext n)) (f : Bytes → Option (DiskloopContext n)) : Prop :=
  ∃ loops' closed, adlCloseAll plat now loops = .ok (loops', closed) ∧
    Represents closed (fun key => (f key).map fun ctx => adlClose ctx (now key).1 (now key).2) ∧
    loops'.Refines plat fun _ => none

lemma visitAll_closeCallback (now : Bytes → Timeval × Timeval)
    (closed : List (Bytes × ChannelFiles)) (l : List (Bytes × DiskloopContext n)) :
    visitAll (closeCallback now) closed l
      = (closed ++ l.map fun p => (p.1, adlClose p.2 (now p.1).1 (now p.1).2),
          l.map fun p => (p.1, p.2, none)) := by
  induction l generalizing closed with
  | nil => simp [visitAll]
  | cons p l ih => simp [visitAll, closeCallback, ih]

lemma kept_of_all_removed {α : Type*} (l : List (Bytes × α)) :
    kept (l.map fun p => (p.1, p.2, none)) = [] := by
  simp [kept]

/-- All contexts are closed exactly when each of them has its bucket for itself. -/
lemma closesAll_iff {loops : Map (DiskloopContext n)} {f : Bytes → Option (DiskloopContext n)}
    (h : loops.Stores plat f) (now : Bytes → Timeval × Timeval) :
    ClosesAll plat now loops f ↔ ∀ key, Alone (mapIndex plat loops.count) f key := by
  have hall := visitAll_closeCallback now [] loops.entries
  have halone : RemovedAlone plat loops (visitAll (closeCallback now) [] loops.entries).2
      ↔ ∀ key, Alone (mapIndex plat loops.count) f key := by
    rw [hall]
    constructor
    · intro hremoved key hkey
      obtain ⟨ctx, hctx⟩ := Option.ne_none_iff_exists'.mp hkey
      have hmem := (h.entries.mem_iff key ctx).mpr hctx
      exact (h.length_live_iff hctx).mp
        (hremoved (key, ctx, none) (List.mem_map.mpr ⟨_, hmem, rfl⟩) rfl) hkey
    · intro hkeys x hx _
      obtain ⟨p, hp, rfl⟩ := List.mem_map.mp hx
      exact (h.length_live_iff (h.entries.eq_some hp)).mpr (hkeys p.1)
  rw [← halone]
  constructor
  · rintro ⟨loops', closed, hok, -, hempty⟩
    rw [adlCloseAll] at hok
    cases hrun : mapEnum plat (closeCallback now) loops [] with
    | error e =>
      rw [hrun] at hok
      cases hok
    | ok r =>
      rw [hrun] at hok
      cases hok
      exact h.removedAlone_of_refines hrun hempty
  · intro hremoved
    obtain ⟨loops', f', hrun, -, hkept, hstores⟩ := h.enum hremoved
    rw [hall] at hrun hkept
    rw [kept_of_all_removed] at hkept
    obtain rfl := hkept.unique Represents.nil
    refine ⟨loops', _, by rw [adlCloseAll, hrun]; rfl, ?_, hstores.refines⟩
    exact h.entries.map_values fun key ctx => adlClose ctx (now key).1 (now key).2

end StationProcessor
