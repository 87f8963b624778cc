import Medius.Device.Input
import Medius.Lib.Edges

/-! The edges an input stream emits, and the held set it remembers. -/

namespace Medius.Catch

open Device Medius.Types

inductive StreamAct
  | pump (event : CatchEvent)
  | pop

/-- A stream and what has been received from it. -/
structure InputHistory where
  decoded : Decoded := .default
  received : List InputEvent := []

namespace InputHistory

variable (filters : List CatchFilter)

def step (s : InputHistory) : StreamAct → InputHistory
  | .pump event => { s with decoded := s.decoded.pump filters event }
  | .pop => ⟨s.decoded.pop.2, s.received ++ s.decoded.pop.1.toList⟩

def run (acts : List StreamAct) : InputHistory := acts.foldl (step filters) {}

def emitted (s : InputHistory) : List InputEvent := s.received ++ s.decoded.pending

end InputHistory

def edge (e : InputEvent) : Option (Edge Usage) :=
  match e.input with
  | .press u => some (.press u)
  | .release u => some (.release u)
  | .motion .. => none

def edges (events : List InputEvent) : List (Edge Usage) := events.filterMap edge

def heard (acts : List StreamAct) : List CatchEvent :=
  acts.filterMap fun a =>
    match a with
    | .pump event => some event
    | .pop => none

/-- The last snapshot of a class. -/
def latest (class_ : Types.Class) (events : List CatchEvent) : Option UsageSnapshot :=
  (events.filterMap fun e =>
    match e with
    | .usages u => if u.class_ = class_ then some u else none
    | _ => none).getLast?

theorem listed_spec (filters : List CatchFilter) (u : UsageSnapshot) :
    (Decoded.listed filters u).Nodup ∧
      ∀ v, v ∈ Decoded.listed filters u ↔ v ∈ u.usages ∧ subscribed filters u.class_ v = true := by
  have h := Edge.foldl_collect (subscribed filters u.class_) u.usages List.nodup_nil
  exact ⟨h.1, fun v => (h.2 v).trans (by simp)⟩

theorem subscribed_class {filters : List CatchFilter} {class_ : Types.Class} {u : Usage}
    (h : subscribed filters class_ u = true) : u.class_ = class_ := by
  simp only [subscribed, Bool.and_eq_true, decide_eq_true_eq] at h
  exact h.1

theorem edges_append (events events' : List InputEvent) :
    edges (events ++ events') = edges events ++ edges events' := List.filterMap_append

/-- The edges a snapshot adds are the difference from what was held. -/
theorem edges_pump_usages (filters : List CatchFilter) (d : Decoded) (u : UsageSnapshot) :
    edges (d.pump filters (.usages u)).pending =
      edges d.pending ++ Edge.diff (d.held u.class_) (Decoded.listed filters u) := by
  simp only [Decoded.pump, edges_append, List.append_assoc, Edge.diff]
  congr 2
  · rw [edges, List.filterMap_map]
    exact congrFun (@List.filterMap_eq_map' _ _ Edge.release) _
  · rw [edges, List.filterMap_map]
    exact congrFun (@List.filterMap_eq_map' _ _ Edge.press) _

theorem edges_pump_motion (filters : List CatchFilter) (d : Decoded) (m : MotionEvent) :
    edges (d.pump filters (.motion m)).pending = edges d.pending := by
  simp only [Decoded.pump]
  split
  · rfl
  · rw [edges_append]
    exact List.append_nil _

/-- The remembered sets are those of the edges so far, and of the latest snapshots. -/
structure Remembers (filters : List CatchFilter) (d : Decoded) (es : List (Edge Usage))
    (events : List CatchEvent) : Prop where
  tracks : ∀ u : Usage, Edge.Tracks u es (u ∈ d.held u.class_)
  nodup : ∀ c, (d.held c).Nodup
  held : ∀ c u, u ∈ d.held c ↔
    ∃ s, latest c events = some s ∧ u ∈ s.usages ∧ subscribed filters c u = true

theorem latest_snoc (c : Types.Class) (events : List CatchEvent) (e : CatchEvent) :
    latest c (events ++ [e]) =
      match e with
      | .usages u => if u.class_ = c then some u else latest c events
      | _ => latest c events := by
  unfold latest
  rw [List.filterMap_append]
  cases e with
  | motion | traffic => simp
  | usages u => by_cases h : u.class_ = c <;> simp [h]

theorem Remembers.pump {filters : List CatchFilter} {d : Decoded} {es : List (Edge Usage)}
    {events : List CatchEvent} (h : Remembers filters d es events) (e : CatchEvent)
    {es' : List (Edge Usage)}
    (hes : edges (d.pump filters e).pending = edges d.pending ++ es') :
    Remembers filters (d.pump filters e) (es ++ es') (events ++ [e]) := by
  cases e with
  | motion m =>
    rw [edges_pump_motion] at hes
    obtain rfl : es' = [] := by simpa using hes
    have hheld : (d.pump filters (.motion m)).held = d.held := by
      simp only [Decoded.pump]
      split <;> rfl
    refine ⟨fun u => ?_, fun c => ?_, fun c u => ?_⟩
    · rw [List.append_nil, hheld]
      exact h.tracks u
    · rw [hheld]
      exact h.nodup c
    · rw [hheld, latest_snoc]
      exact h.held c u
  | traffic t =>
    obtain rfl : es' = [] := by simpa [Decoded.pump] using hes
    refine ⟨fun u => ?_, h.nodup, fun c u => ?_⟩
    · rw [List.append_nil]
      exact h.tracks u
    · rw [latest_snoc]
      exact h.held c u
  | usages s =>
    rw [edges_pump_usages, List.append_cancel_left_eq] at hes
    obtain ⟨hnodup, hlisted⟩ := listed_spec filters s
    have hother : ∀ c, c ≠ s.class_ → (d.pump filters (.usages s)).held c = d.held c :=
      fun c hc => Function.update_of_ne hc _ _
    have hsame : (d.pump filters (.usages s)).held s.class_ = Decoded.listed filters s :=
      Function.update_self _ _ _
    have hclass : ∀ c u, u ∈ d.held c → u.class_ = c := fun c u hu => by
      obtain ⟨_, -, -, hs⟩ := (h.held c u).mp hu
      exact subscribed_class hs
    rw [← hes]
    refine ⟨fun u => ?_, fun c => ?_, fun c u => ?_⟩
    · by_cases hu : u.class_ = s.class_
      · rw [hu, hsame]
        have ht := h.tracks u
        rw [hu] at ht
        exact ht.diff (h.nodup _) hnodup
      · rw [hother _ hu]
        refine (h.tracks u).aside ?_
        rw [Edge.edgesOf_diff u (h.nodup _) hnodup, if_neg fun hw => hu (hclass _ _ hw.1),
          if_neg fun hn => hu (subscribed_class ((hlisted u).mp hn.1).2)]
    · by_cases hc : c = s.class_
      · rw [hc, hsame]
        exact hnodup
      · rw [hother c hc]
        exact h.nodup c
    · rw [latest_snoc]
      by_cases hc : c = s.class_
      · subst hc
        rw [hsame]
        simpa using hlisted u
      · rw [hother c hc]
        simpa [Ne.symm hc] using h.held c u

/-- What one event adds, and among its edges no press ahead of a release. -/
theorem pump_adds (filters : List CatchFilter) (d : Decoded) (e : CatchEvent) :
    ∃ added, (d.pump filters e).pending = d.pending ++ added ∧
      (edges added).Pairwise fun a b => a.isPress = true → b.isPress = true := by
  cases e with
  | motion m =>
    simp only [Decoded.pump]
    split
    · exact ⟨[], (List.append_nil _).symm, .nil⟩
    · exact ⟨_, rfl, .nil⟩
  | traffic t => exact ⟨[], (List.append_nil _).symm, .nil⟩
  | usages u =>
    refine ⟨_, List.append_assoc _ _ _, ?_⟩
    have hadded := edges_pump_usages filters d u
    simp only [Decoded.pump, edges_append, List.append_assoc, List.append_cancel_left_eq] at hadded
    rw [edges_append, hadded]
    exact Edge.diff_releases_first _ _

theorem remembers_run (filters : List CatchFilter) (acts : List StreamAct) :
    Remembers filters (InputHistory.run filters acts).decoded
      (edges (InputHistory.run filters acts).emitted) (heard acts) := by
  induction acts using List.reverseRecOn with
  | nil =>
    refine ⟨fun u => ?_, fun c => List.nodup_nil, fun c u => ?_⟩
    · have hheld : (u ∈ (InputHistory.run filters []).decoded.held u.class_) = False :=
        eq_false List.not_mem_nil
      rw [hheld]
      exact .nil u
    · exact iff_of_false List.not_mem_nil fun ⟨_, hs, _⟩ => by cases hs
  | append_singleton acts a ih =>
    have hrun : InputHistory.run filters (acts ++ [a]) =
        (InputHistory.run filters acts).step filters a := List.foldl_append
    have hheard : heard (acts ++ [a]) = heard acts ++ heard [a] := List.filterMap_append
    rw [hrun, hheard]
    cases a with
    | pump e =>
      obtain ⟨added, hadded, -⟩ :=
        pump_adds filters (InputHistory.run filters acts).decoded e
      have h := ih.pump e (by rw [hadded, edges_append])
      have hemitted : edges ((InputHistory.run filters acts).step filters (.pump e)).emitted =
          edges (InputHistory.run filters acts).emitted ++ edges added := by
        rw [← edges_append]
        simp only [InputHistory.emitted, InputHistory.step, hadded, List.append_assoc]
      rw [hemitted]
      exact h
    | pop =>
      have hemitted : ((InputHistory.run filters acts).step filters .pop).emitted =
          (InputHistory.run filters acts).emitted := by
        simp only [InputHistory.emitted, InputHistory.step, Decoded.pop]
        cases (InputHistory.run filters acts).decoded.pending <;> simp
      have hnone : heard acts ++ heard [.pop] = heard acts := List.append_nil _
      rw [hemitted, hnone]
      exact ⟨ih.tracks, ih.nodup, ih.held⟩

/-- Whatever is heard and received: presses and releases of a usage take turns, a report's releases
come before its presses, and the held set is the latest snapshot's and the edges'. -/
theorem input_edges (filters : List CatchFilter) (acts : List StreamAct) :
    let s := InputHistory.run filters acts
    (∀ u, Edge.Alternates (Edge.edgesOf u (edges s.emitted))) ∧
      (∀ e, ∃ added, (s.decoded.pump filters e).pending = s.decoded.pending ++ added ∧
        (edges added).Pairwise fun a b => a.isPress = true → b.isPress = true) ∧
      ∀ c, (s.decoded.held c).Nodup ∧ ∀ u,
        (u ∈ s.decoded.held c ↔ ∃ snapshot, latest c (heard acts) = some snapshot ∧
          u ∈ snapshot.usages ∧ subscribed filters c u = true) ∧
        (u ∈ s.decoded.held c ↔ u.class_ = c ∧
          (Edge.edgesOf u (edges s.emitted)).getLast? = some true) := by
  have h := remembers_run filters acts
  refine ⟨fun u => (h.tracks u).alternates, fun e => pump_adds filters _ e, fun c =>
    ⟨h.nodup c, fun u => ⟨h.held c u, fun hu => ?_, ?_⟩⟩⟩
  · obtain ⟨_, -, -, hs⟩ := (h.held c u).mp hu
    obtain rfl := subscribed_class hs
    exact ⟨rfl, (h.tracks u).last.mpr hu⟩
  · rintro ⟨rfl, hlast⟩
    exact (h.tracks u).last.mp hlast

end Medius.Catch
