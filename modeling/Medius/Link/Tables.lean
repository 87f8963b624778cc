import Medius.Lib.Keyed
import Medius.Link.Operation

/-! The lists of rules, transforms and packet triggers are keyed tables. -/

namespace Medius.Link.DesiredState

open Medius.Types

theorem applyRewrite_eq (d : DesiredState) (r : StoredRewrite) :
    (d.applyRewrite r).1 =
      { d with rewrites := Keyed.setLast StoredRewrite.key d.rewrites r } := by
  unfold applyRewrite Keyed.setLast Keyed.position
  dsimp only
  cases d.rewrites.findIdx? fun e => e.key = r.key with
  | none => rfl
  | some i => by_cases h : d.rewrites[i]? = some r <;> simp [h]

theorem removeRewrite_eq (d : DesiredState) (key : RewriteWireKey) :
    (d.removeRewrite key).1 =
      { d with rewrites := Keyed.remove StoredRewrite.key d.rewrites key } := by
  unfold removeRewrite Keyed.remove Keyed.position
  cases d.rewrites.findIdx? fun e => e.key = key with
  | none => rfl
  | some i => rfl

theorem applyTransform_eq (d : DesiredState) (t : StoredTransform) :
    (d.applyTransform t).1 =
      { d with transforms := Keyed.setInPlace StoredTransform.key d.transforms t } := by
  unfold applyTransform Keyed.setInPlace Keyed.position
  dsimp only
  cases d.transforms.findIdx? fun e => e.key = t.key with
  | none => rfl
  | some i => rfl

theorem removeTransform_eq (d : DesiredState) (key : TransformWireKey) :
    (d.removeTransform key).1 =
      { d with transforms := Keyed.remove StoredTransform.key d.transforms key } := by
  unfold removeTransform Keyed.remove Keyed.position
  cases d.transforms.findIdx? fun e => e.key = key with
  | none => rfl
  | some i => rfl

theorem clipPacketBind_eq (d : DesiredState) (t : ClipPacketTrigger) :
    d.clipPacketBind t =
      { d with clip := { d.clip with
          packetTriggers := Keyed.setInPlace clipPacketKey d.clip.packetTriggers t } } := by
  unfold clipPacketBind Keyed.setInPlace Keyed.position
  rfl

theorem foldl_applyRewrite (d : DesiredState) (rules : List StoredRewrite) :
    rules.foldl (fun d r => (d.applyRewrite r).1) d =
      { d with rewrites := rules.foldl (Keyed.setLast StoredRewrite.key) d.rewrites } := by
  induction rules generalizing d with
  | nil => rfl
  | cons r rules ih => rw [List.foldl_cons, ih, applyRewrite_eq, List.foldl_cons]

theorem foldl_applyTransform (d : DesiredState) (entries : List StoredTransform) :
    entries.foldl (fun d t => (d.applyTransform t).1) d =
      { d with transforms := entries.foldl (Keyed.setInPlace StoredTransform.key) d.transforms } := by
  induction entries generalizing d with
  | nil => rfl
  | cons t entries ih => rw [List.foldl_cons, ih, applyTransform_eq, List.foldl_cons]

theorem foldl_clipPacketBind (d : DesiredState) (ts : List ClipPacketTrigger) :
    ts.foldl clipPacketBind d =
      { d with clip := { d.clip with
          packetTriggers := ts.foldl (Keyed.setInPlace clipPacketKey) d.clip.packetTriggers } } := by
  induction ts generalizing d with
  | nil => rfl
  | cons t ts ih => rw [List.foldl_cons, ih, clipPacketBind_eq, List.foldl_cons]

theorem restoreRewrite_applyRewrite {d : DesiredState}
    (h : (d.rewrites.map StoredRewrite.key).Nodup) (r : StoredRewrite) :
    (d.applyRewrite r).1.restoreRewrite (d.applyRewrite r).2 = d := by
  unfold applyRewrite
  dsimp only
  split
  next i hi =>
    obtain ⟨hlt, -, -⟩ := List.findIdx?_eq_some_iff_getElem.mp hi
    have ha := List.getElem?_eq_getElem hlt
    have hput := Keyed.insertIdx_filter StoredRewrite.key h hi ha
    split
    next hsame =>
      rw [hsame, Option.some_inj] at ha
      rw [← ha] at hput
      simp only [restoreRewrite, hput]
    next =>
      have hfilter : ((d.rewrites.eraseIdx i ++ [r]).filter fun e => e.key ≠ r.key) =
          d.rewrites.filter fun e => e.key ≠ r.key := by
        rw [← Keyed.filter_eq_eraseIdx StoredRewrite.key h hi, List.filter_append,
          List.filter_filter]
        simp
      simp only [restoreRewrite, ha, Option.map_some, hfilter, hput]
  next hi =>
    have hfresh := (Keyed.position_eq_none StoredRewrite.key d.rewrites r.key).mp hi
    have hfilter : ((d.rewrites ++ [r]).filter fun e => e.key ≠ r.key) = d.rewrites := by
      rw [List.filter_append, List.filter_eq_self.mpr (by simpa using hfresh)]
      simp
    simp only [restoreRewrite, hfilter]

theorem restoreRewrite_removeRewrite {d : DesiredState}
    (h : (d.rewrites.map StoredRewrite.key).Nodup) (key : RewriteWireKey) :
    (d.removeRewrite key).1.restoreRewrite (d.removeRewrite key).2 = d := by
  unfold removeRewrite
  split
  next i hi =>
    obtain ⟨hlt, -, -⟩ := List.findIdx?_eq_some_iff_getElem.mp hi
    have ha := List.getElem?_eq_getElem hlt
    have hput := Keyed.insertIdx_filter StoredRewrite.key h hi ha
    have hfilter : ((d.rewrites.eraseIdx i).filter fun e => e.key ≠ key) =
        d.rewrites.filter fun e => e.key ≠ key := by
      rw [← Keyed.filter_eq_eraseIdx StoredRewrite.key h hi, List.filter_filter]
      simp
    simp only [restoreRewrite, ha, Option.map_some, hfilter, hput]
  next hi =>
    have hfresh := (Keyed.position_eq_none StoredRewrite.key d.rewrites key).mp hi
    have hfilter : (d.rewrites.filter fun e => e.key ≠ key) = d.rewrites :=
      List.filter_eq_self.mpr (by simpa using hfresh)
    simp only [restoreRewrite, hfilter]

theorem restoreTransform_applyTransform (d : DesiredState) (t : StoredTransform) :
    (d.applyTransform t).1.restoreTransform (d.applyTransform t).2 = d := by
  unfold applyTransform
  dsimp only
  split
  next i hi =>
    obtain ⟨hlt, -, -⟩ := List.findIdx?_eq_some_iff_getElem.mp hi
    have ha := List.getElem?_eq_getElem hlt
    have hpos : ((d.transforms.set i t).findIdx? fun e => e.key = t.key) = some i :=
      (Keyed.position_congr StoredTransform.key
        (Keyed.map_key_set StoredTransform.key hi) t.key).trans hi
    simp [restoreTransform, ha, hpos]
  next hi =>
    have hfresh := (Keyed.position_eq_none StoredTransform.key d.transforms t.key).mp hi
    have hfilter : ((d.transforms ++ [t]).filter fun e => e.key ≠ t.key) = d.transforms := by
      rw [List.filter_append, List.filter_eq_self.mpr (by simpa using hfresh)]
      simp
    simp only [restoreTransform, hfilter]

theorem restoreTransform_removeTransform {d : DesiredState}
    (h : (d.transforms.map StoredTransform.key).Nodup) (key : TransformWireKey) :
    (d.removeTransform key).1.restoreTransform (d.removeTransform key).2 = d := by
  unfold removeTransform
  split
  next i hi =>
    obtain ⟨hlt, -, -⟩ := List.findIdx?_eq_some_iff_getElem.mp hi
    have ha := List.getElem?_eq_getElem hlt
    have hput := Keyed.insertIdx_filter StoredTransform.key h hi ha
    have hgone : ((d.transforms.eraseIdx i).findIdx? fun e => e.key = key) = none := by
      rw [← Keyed.filter_eq_eraseIdx StoredTransform.key h hi]
      exact (Keyed.position_eq_none StoredTransform.key _ key).mpr (by simp)
    rw [Keyed.filter_eq_eraseIdx StoredTransform.key h hi] at hput
    simp only [restoreTransform, ha, Option.map_some, hgone, hput]
  next hi =>
    have hfresh := (Keyed.position_eq_none StoredTransform.key d.transforms key).mp hi
    have hfilter : (d.transforms.filter fun e => e.key ≠ key) = d.transforms :=
      List.filter_eq_self.mpr (by simpa using hfresh)
    simp only [restoreTransform, hfilter]

/-- No rule and no transform is held under a key twice. -/
structure TablesKeyed (d : DesiredState) : Prop where
  rewrites : (d.rewrites.map StoredRewrite.key).Nodup
  transforms : (d.transforms.map StoredTransform.key).Nodup

theorem TablesKeyed.applyRewrite {d : DesiredState} (h : d.TablesKeyed) (r : StoredRewrite) :
    (d.applyRewrite r).1.TablesKeyed := by
  rw [applyRewrite_eq]
  exact ⟨Keyed.setLast_nodup _ h.rewrites r, h.transforms⟩

theorem TablesKeyed.removeRewrite {d : DesiredState} (h : d.TablesKeyed) (key : RewriteWireKey) :
    (d.removeRewrite key).1.TablesKeyed := by
  rw [removeRewrite_eq]
  exact ⟨Keyed.remove_nodup _ h.rewrites key, h.transforms⟩

theorem TablesKeyed.applyTransform {d : DesiredState} (h : d.TablesKeyed) (t : StoredTransform) :
    (d.applyTransform t).1.TablesKeyed := by
  rw [applyTransform_eq]
  exact ⟨h.rewrites, Keyed.setInPlace_nodup _ h.transforms t⟩

theorem TablesKeyed.removeTransform {d : DesiredState} (h : d.TablesKeyed)
    (key : TransformWireKey) : (d.removeTransform key).1.TablesKeyed := by
  rw [removeTransform_eq]
  exact ⟨h.rewrites, Keyed.remove_nodup _ h.transforms key⟩

end Medius.Link.DesiredState
