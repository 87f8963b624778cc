import Medius.Lib.Keyed
import Medius.Packets.Ranked

/-! A history of sets and packets: whether a run is live is a fact about the packets since its
binding last changed. -/

namespace Medius.Packets

open Protocol Mock Mock.PacketTriggers

structure SetCall where
  class_ : UInt8
  id : UInt16
  dir : UInt8
  action : UInt8
  flags : UInt8
  slen : UInt8
  matchBytes : List UInt8
  mask : List UInt8
  imperfect : Bool

abbrev Key := UInt8 × UInt16 × UInt8 × List UInt8 × List UInt8

def SetCall.key (c : SetCall) : Key := (c.class_, c.id, c.dir, c.matchBytes, c.mask)

/-- The row the call binds where its key is free. -/
def SetCall.row (c : SetCall) : MockPacketTrigger :=
  setRow c.class_ c.id c.dir c.action c.flags c.slen c.matchBytes c.mask

inductive Event
  | set (c : SetCall)
  | packet (p : Packet)

/-- What the triggers are after a call, refused ones included. -/
def setAll (rows : Rows) (c : SetCall) : Rows :=
  (PacketTriggers.set rows c.class_ c.id c.dir c.action c.flags c.slen c.matchBytes c.mask
    c.imperfect).elim rows Prod.fst

def serve (rows : Rows) (p : Packet) : Rows × Option UInt8 × Bool :=
  PacketTriggers.packet rows p.class_ p.id p.dir p.head

def step (rows : Rows) : Event → Rows
  | .set c => setAll rows c
  | .packet p => (serve rows p).1

/-- What happened, the latest first. -/
abbrev History := List Event

def after : History → Rows
  | [] => []
  | e :: h => step (after h) e

/-- What an overwrite can change of a trigger. -/
def binding (r : MockPacketTrigger) : UInt8 × UInt8 × UInt8 := (r.action, r.flags, r.slen)

def bindingOf (rows : Rows) (k : Key) : Option (UInt8 × UInt8 × UInt8) :=
  (rows.find? fun r => r.key = k).map binding

/-- The packets since the key was bound or its binding last changed, the latest first. -/
def since (k : Key) : History → List Packet
  | [] => []
  | e :: h =>
    if bindingOf (after (e :: h)) k ≠ bindingOf (after h) k then []
    else
      match e with
      | .set _ => since k h
      | .packet p => p :: since k h

/-- A packet on the trigger's exact address whose head begins with its selector. -/
def onStream (r : MockPacketTrigger) (p : Packet) : Bool :=
  (r.class_, r.id, r.dir) = (p.class_, p.id, p.dir) &&
    pktHeadEq r.matchBytes r.mask r.slen.toNat p.head

def met (r : MockPacketTrigger) (p : Packet) : Bool :=
  pktHeadEq r.matchBytes r.mask r.matchBytes.length p.head

/-- Whether the latest packet of the stream matched in full; false if there was none. -/
def lastMet (r : MockPacketTrigger) (ps : List Packet) : Bool :=
  (ps.find? (onStream r)).any (met r)

/-- A row's bytes are within the box's bounds, and its selector within its match. -/
structure Sound (r : MockPacketTrigger) : Prop where
  maskLen : r.mask.length = r.matchBytes.length
  matchLen : r.matchBytes.length ≤ pktMatchMax
  selector : r.slen.toNat ≤ r.matchBytes.length

/-- What a set the box takes does to the rows. -/
inductive Sets (rows : Rows) (c : SetCall) : Rows → Prop
  | removed : Sets rows c (Keyed.remove MockPacketTrigger.key rows c.key)
  | overwritten {i : Nat} {r : MockPacketTrigger}
      (found : Keyed.position MockPacketTrigger.key rows c.key = some i) (row : rows[i]? = some r)
      (key : r.key = c.key) (sound : Sound c.row) : Sets rows c (rows.set i (r.overwrite c.row))
  | bound (fresh : ∀ r ∈ rows, r.key ≠ c.key) (sound : Sound c.row) : Sets rows c (rows ++ [c.row])

theorem selector_of_admissible {c : SetCall} (hmask : c.mask.length = c.matchBytes.length)
    (h : admissible c.class_ c.id c.dir c.action c.flags c.slen c.mask c.imperfect) :
    c.slen.toNat ≤ c.matchBytes.length := by
  unfold admissible at h
  dsimp only at h
  split at h
  · cases h
  split at h
  · cases h
  split at h
  · by_contra hlen
    have hdrop : c.mask.drop c.slen.toNat = [] := List.drop_eq_nil_of_le (by omega)
    simp [hdrop] at h
  · rw [of_decide_eq_true h]
    exact Nat.zero_le _

theorem set_cases (rows : Rows) (c : SetCall) :
    setAll rows c = rows ∨ Sets rows c (setAll rows c) := by
  unfold setAll PacketTriggers.set
  dsimp only
  by_cases haddr : addressable c.class_ c.dir c.matchBytes c.mask
  · obtain ⟨-, -, hlen, hmask, -⟩ := of_addressable haddr
    rw [if_neg (not_not.mpr haddr)]
    cases hfound : rows.findIdx? fun r => r.key = (c.class_, c.id, c.dir, c.matchBytes, c.mask) with
    | none =>
      split
      · exact .inl rfl
      split
      · exact .inl rfl
      next hadm =>
        dsimp only
        split
        · exact .inl rfl
        · refine .inr (.bound ?_ ⟨hmask, hlen, selector_of_admissible hmask (not_not.mp hadm)⟩)
          exact (Keyed.position_eq_none MockPacketTrigger.key rows c.key).mp hfound
    | some i =>
      split
      · have hremove : Keyed.remove MockPacketTrigger.key rows c.key = rows.eraseIdx i := by
          rw [Keyed.remove, show Keyed.position MockPacketTrigger.key rows c.key = some i from hfound]
        refine .inr ?_
        change Sets rows c (rows.eraseIdx i)
        rw [← hremove]
        exact .removed
      split
      · exact .inl rfl
      next hadm =>
        obtain ⟨hi, hkey, -⟩ := List.findIdx?_eq_some_iff_getElem.mp hfound
        have hrow : rows[i]? = some rows[i] := List.getElem?_eq_getElem hi
        have hset : rows.modify i (fun r => r.overwrite c.row) =
            rows.set i (rows[i].overwrite c.row) := by
          rw [List.modify_eq_set_getElem?, hrow]
          rfl
        refine .inr ?_
        change Sets rows c (rows.modify i fun r => r.overwrite c.row)
        rw [hset]
        exact .overwritten hfound hrow (of_decide_eq_true hkey)
          ⟨hmask, hlen, selector_of_admissible hmask (not_not.mp hadm)⟩
  · rw [if_pos haddr]
    exact .inl rfl

@[simp] theorem key_overwrite (old new : MockPacketTrigger) : (old.overwrite new).key = old.key := by
  unfold MockPacketTrigger.overwrite
  split <;> rfl

/-- An overwrite changes nothing, or it changes the binding and ends the run. -/
theorem overwrite_cases (old new : MockPacketTrigger) :
    old.overwrite new = old ∨
      binding (old.overwrite new) ≠ binding old ∧ (old.overwrite new).live = false := by
  unfold MockPacketTrigger.overwrite
  split
  next h => exact .inr ⟨Ne.symm h, rfl⟩
  next h => exact .inl rfl

theorem Sound.overwrite {old new : MockPacketTrigger} (hold : Sound old) (hnew : Sound new)
    (hkey : old.key = new.key) : Sound (old.overwrite new) := by
  have hmatch : old.matchBytes = new.matchBytes := congrArg (·.2.2.2.1) hkey
  unfold MockPacketTrigger.overwrite
  split
  · exact ⟨hold.maskLen, hold.matchLen, hmatch ▸ hnew.selector⟩
  · exact hold

theorem bindingOf_eq_some {rows : Rows} (h : (rows.map MockPacketTrigger.key).Nodup) {k : Key}
    {b : UInt8 × UInt8 × UInt8} :
    bindingOf rows k = some b ↔ ∃ r ∈ rows, r.key = k ∧ binding r = b := by
  rw [bindingOf, Option.map_eq_some_iff]
  constructor
  · rintro ⟨r, hr, hb⟩
    exact ⟨r, List.mem_of_find?_eq_some hr, by simpa using List.find?_some hr, hb⟩
  · rintro ⟨r, hr, rfl, hb⟩
    refine ⟨r, ?_, hb⟩
    obtain ⟨r', hr'⟩ : ∃ r', rows.find? (fun r' => r'.key = r.key) = some r' := by
      rw [← Option.isSome_iff_exists, List.find?_isSome]
      exact ⟨r, hr, by simp⟩
    have hkey : r'.key = r.key := by simpa using List.find?_some hr'
    rw [hr', List.inj_on_of_nodup_map h (List.mem_of_find?_eq_some hr') hr hkey]

/-- What a key is bound to depends on the rows of that key only. -/
theorem bindingOf_congr {rows rows' : Rows} (h : (rows.map MockPacketTrigger.key).Nodup)
    (h' : (rows'.map MockPacketTrigger.key).Nodup) {k : Key}
    (hk : ∀ r, r.key = k → (r ∈ rows' ↔ r ∈ rows)) : bindingOf rows' k = bindingOf rows k := by
  refine Option.ext fun b => ?_
  rw [bindingOf_eq_some h, bindingOf_eq_some h']
  constructor
  · rintro ⟨r, hr, hkey, hb⟩
    exact ⟨r, (hk r hkey).mp hr, hkey, hb⟩
  · rintro ⟨r, hr, hkey, hb⟩
    exact ⟨r, (hk r hkey).mpr hr, hkey, hb⟩

theorem bindingOf_of_mem {rows : Rows} (h : (rows.map MockPacketTrigger.key).Nodup)
    {r : MockPacketTrigger} (hr : r ∈ rows) : bindingOf rows r.key = some (binding r) :=
  (bindingOf_eq_some h).mpr ⟨r, hr, rfl, rfl⟩

theorem Sets.nodup {rows rows' : Rows} {c : SetCall} (hs : Sets rows c rows')
    (h : (rows.map MockPacketTrigger.key).Nodup) : (rows'.map MockPacketTrigger.key).Nodup := by
  cases hs with
  | removed => exact Keyed.remove_nodup _ h _
  | @overwritten i old found row key =>
    rw [Keyed.map_key_set]
    · exact h
    · rwa [key_overwrite, key]
  | bound fresh => exact Keyed.append_nodup _ h fresh

/-- The triggers under other keys stay as they are. -/
theorem Sets.mem_iff {rows rows' : Rows} {c : SetCall} (hs : Sets rows c rows')
    (h : (rows.map MockPacketTrigger.key).Nodup) {r : MockPacketTrigger} (hr : r.key ≠ c.key) :
    r ∈ rows' ↔ r ∈ rows := by
  cases hs with
  | removed =>
    rw [Keyed.mem_remove _ h]
    exact and_iff_left hr
  | @overwritten i old found row key =>
    have hold : old.key ≠ r.key := fun h => hr (h ▸ key)
    constructor
    · intro hmem
      refine (List.mem_or_eq_of_mem_set hmem).resolve_right ?_
      rintro rfl
      exact hold (key_overwrite old c.row).symm
    · intro hmem
      obtain ⟨j, hj⟩ := List.mem_iff_getElem?.mp hmem
      have hij : i ≠ j := by
        rintro rfl
        exact hold (congrArg _ (Option.some.inj (row.symm.trans hj)))
      exact List.mem_iff_getElem?.mpr ⟨j, by rw [List.getElem?_set_ne hij, hj]⟩
  | bound fresh =>
    rw [List.mem_append, List.mem_singleton]
    refine or_iff_left ?_
    rintro rfl
    exact hr rfl

theorem Sets.sound {rows rows' : Rows} {c : SetCall} (hs : Sets rows c rows')
    (h : ∀ r ∈ rows, Sound r) : ∀ r ∈ rows', Sound r := by
  intro r hr
  cases hs with
  | removed => exact h r ((Keyed.remove_sublist _ _ _).mem hr)
  | @overwritten i old found row key sound =>
    rcases List.mem_or_eq_of_mem_set hr with hr | rfl
    · exact h r hr
    · exact (h old (List.mem_of_getElem? row)).overwrite sound key
  | bound fresh sound =>
    rcases List.mem_append.mp hr with hr | hr
    · exact h r hr
    · obtain rfl := List.mem_singleton.mp hr
      exact sound

/-- The trigger under the call's own key is one it left alone, or has begun anew. -/
theorem Sets.own {rows rows' : Rows} {c : SetCall} (hs : Sets rows c rows')
    (h : (rows.map MockPacketTrigger.key).Nodup) {r : MockPacketTrigger} (hr : r ∈ rows')
    (hk : r.key = c.key) :
    r ∈ rows ∨ bindingOf rows' r.key ≠ bindingOf rows r.key ∧ r.live = false := by
  have hnow := bindingOf_of_mem (hs.nodup h) hr
  cases hs with
  | removed => exact .inl ((Keyed.remove_sublist _ _ _).mem hr)
  | @overwritten i old found row key =>
    rcases List.mem_or_eq_of_mem_set hr with hr | rfl
    · exact .inl hr
    · have hold := List.mem_of_getElem? row
      rcases overwrite_cases old c.row with heq | ⟨hne, hlive⟩
      · rw [heq]
        exact .inl hold
      · refine .inr ⟨?_, hlive⟩
        rw [hnow, key_overwrite, bindingOf_of_mem h hold]
        exact fun h => hne (Option.some.inj h)
  | bound fresh =>
    rcases List.mem_append.mp hr with hr | hr
    · exact .inl hr
    · obtain rfl := List.mem_singleton.mp hr
      refine .inr ⟨?_, rfl⟩
      have hnone : rows.find? (fun r => r.key = c.row.key) = none :=
        List.find?_eq_none.mpr fun r hr h => fresh r hr (of_decide_eq_true h)
      rw [hnow, bindingOf, hnone]
      exact nofun

/-- The row with its count left out. -/
def unhit (r : MockPacketTrigger) : MockPacketTrigger := { r with hits := 0 }

abbrev observeFor (p : Packet) (r : MockPacketTrigger) : MockPacketTrigger :=
  r.observe p.class_ p.id p.dir p.head

theorem map_modify {α β : Type} {f : α → β} {g : α → α} {k : β → β} (h : ∀ a, f (g a) = k (f a))
    (l : List α) (i : Nat) : (l.modify i g).map f = (l.map f).modify i k := by
  refine List.ext_getElem? fun j => ?_
  rw [List.getElem?_map, List.getElem?_modify, List.getElem?_modify, List.getElem?_map]
  by_cases hij : i = j
  · cases l[j]? with
    | none => rfl
    | some a => simp [hij, h]
  · cases l[j]? with
    | none => rfl
    | some a => simp [hij]

theorem observeFor_eq (p : Packet) (r : MockPacketTrigger) :
    observeFor p r = if r.isRun ∧ onStream r p then { r with live := met r p } else r := by
  unfold observeFor MockPacketTrigger.observe onStream
  by_cases hrun : r.isRun
  · by_cases haddr : (r.class_, r.id, r.dir) = (p.class_, p.id, p.dir)
    · by_cases hhead : pktHeadEq r.matchBytes r.mask r.slen.toNat p.head
      · simp [hrun, haddr, hhead, met]
      · simp [hrun, haddr, hhead]
    · simp [hrun, haddr]
  · simp [hrun]

theorem isRun_observeFor (p : Packet) (r : MockPacketTrigger) :
    (observeFor p r).isRun = r.isRun := by
  rw [observeFor_eq]
  split <;> rfl

theorem binding_observeFor (p : Packet) (r : MockPacketTrigger) :
    binding (observeFor p r) = binding r := by
  rw [observeFor_eq]
  split <;> rfl

theorem serve_none {rows : Rows} {p : Packet} (h : Top.top (scoreFor p) rows = none) :
    serve rows p = (rows.map (observeFor p), none, false) := by
  unfold serve PacketTriggers.packet
  simp only [show Top.top (fun r => r.score p.class_ p.id p.dir p.head) rows = none from h]

theorem serve_some {rows : Rows} {p : Packet} {i s : Nat} {r : MockPacketTrigger}
    (h : Top.top (scoreFor p) rows = some (i, s)) (hr : rows[i]? = some r) :
    serve rows p = ((rows.map (observeFor p)).modify i MockPacketTrigger.hit,
      if r.isRun ∧ r.live then none else some r.action,
      decide (r.flags &&& clipTrigFConsume ≠ 0)) := by
  have hrow : (rows.map fun r => r.observe p.class_ p.id p.dir p.head)[i]? =
      some (observeFor p r) := by
    rw [List.getElem?_map, hr]
    rfl
  have haction : (observeFor p r).action = r.action := congrArg Prod.fst (binding_observeFor p r)
  have hflags : (observeFor p r).flags = r.flags := congrArg (·.2.1) (binding_observeFor p r)
  unfold serve PacketTriggers.packet
  simp only [show Top.top (fun r => r.score p.class_ p.id p.dir p.head) rows = some (i, s) from h,
    hrow, hr, Option.any_some, isRun_observeFor, haction, hflags, Bool.and_eq_true]

/-- Apart from the counts, a packet changes just the runs that take note of it. -/
theorem serve_unhit (rows : Rows) (p : Packet) :
    (serve rows p).1.map unhit = rows.map fun r => unhit (observeFor p r) := by
  have hbest : Top.Best (scoreFor p) rows (Top.top (scoreFor p) rows) := Top.best_top rows
  cases htop : Top.top (scoreFor p) rows with
  | none =>
    rw [serve_none htop, List.map_map]
    rfl
  | some top =>
    obtain ⟨i, s⟩ := top
    rw [htop] at hbest
    obtain ⟨r, hr, -⟩ := Top.First.scored hbest
    rw [serve_some htop hr]
    dsimp only
    rw [map_modify (f := unhit) (g := MockPacketTrigger.hit) (k := id) fun _ => rfl,
      List.modify_id, List.map_map]
    rfl

theorem key_observeFor (p : Packet) (r : MockPacketTrigger) : (observeFor p r).key = r.key := by
  rw [observeFor_eq]
  split <;> rfl

theorem serve_keys (rows : Rows) (p : Packet) :
    (serve rows p).1.map MockPacketTrigger.key = rows.map MockPacketTrigger.key := by
  have h := congrArg (List.map MockPacketTrigger.key) (serve_unhit rows p)
  rw [List.map_map, List.map_map] at h
  refine Eq.trans h (List.map_congr_left fun r _ => ?_)
  exact key_observeFor p r

theorem bindingOf_map {f : MockPacketTrigger → MockPacketTrigger} (hkey : ∀ r, (f r).key = r.key)
    (hbinding : ∀ r, binding (f r) = binding r) (rows : Rows) (k : Key) :
    bindingOf (rows.map f) k = bindingOf rows k := by
  rw [bindingOf, List.find?_map, Option.map_map, bindingOf]
  simp only [Function.comp_def, hkey, hbinding]

theorem bindingOf_serve (rows : Rows) (p : Packet) (k : Key) :
    bindingOf (serve rows p).1 k = bindingOf rows k := by
  rw [← bindingOf_map (f := unhit) (fun _ => rfl) (fun _ => rfl) (serve rows p).1, serve_unhit,
    bindingOf_map (f := fun r => unhit (observeFor p r)) (key_observeFor p) (binding_observeFor p)]

theorem mem_serve {rows : Rows} {p : Packet} {r : MockPacketTrigger} (hr : r ∈ (serve rows p).1) :
    ∃ old ∈ rows, ∃ n, r = { old with hits := n, live := (observeFor p old).live } := by
  have hmem : unhit r ∈ (serve rows p).1.map unhit := List.mem_map_of_mem hr
  rw [serve_unhit] at hmem
  obtain ⟨old, hold, heq⟩ := List.mem_map.mp hmem
  have hobs : observeFor p old = { old with live := (observeFor p old).live } := by
    rw [observeFor_eq]
    split <;> rfl
  refine ⟨old, hold, r.hits, ?_⟩
  calc r = { unhit r with hits := r.hits } := rfl
    _ = { unhit (observeFor p old) with hits := r.hits } := by rw [heq]
    _ = { old with hits := r.hits, live := (observeFor p old).live } := by rw [hobs]; rfl

theorem lastMet_cons (r : MockPacketTrigger) (p : Packet) (ps : List Packet) :
    lastMet r (p :: ps) = if onStream r p then met r p else lastMet r ps := by
  unfold lastMet
  rw [List.find?_cons]
  by_cases h : onStream r p <;> simp [h]

/-- What holds of the triggers after any history. -/
structure Ran (h : History) : Prop where
  nodup : ((after h).map MockPacketTrigger.key).Nodup
  sound : ∀ r ∈ after h, Sound r
  live : ∀ r ∈ after h, r.isRun → r.live = lastMet r (since r.key h)

theorem since_set_of_eq {h : History} {c : SetCall} {k : Key}
    (heq : bindingOf (setAll (after h) c) k = bindingOf (after h) k) :
    since k (.set c :: h) = since k h :=
  if_neg (not_not.mpr heq)

theorem Ran.set {h : History} (hr : Ran h) (c : SetCall) : Ran (.set c :: h) := by
  rcases set_cases (after h) c with hsame | hs
  · have hrows : after (.set c :: h) = after h := hsame
    refine ⟨by rw [hrows]; exact hr.nodup, by rw [hrows]; exact hr.sound, fun r hmem hrun => ?_⟩
    rw [hrows] at hmem
    rw [since_set_of_eq (congrArg (bindingOf · r.key) hsame)]
    exact hr.live r hmem hrun
  · refine ⟨hs.nodup hr.nodup, hs.sound hr.sound, fun r hmem hrun => ?_⟩
    by_cases heq : bindingOf (setAll (after h) c) r.key = bindingOf (after h) r.key
    · rw [since_set_of_eq heq]
      refine hr.live r ?_ hrun
      by_cases hk : r.key = c.key
      · exact (hs.own hr.nodup hmem hk).resolve_right fun hnew => hnew.1 heq
      · exact (hs.mem_iff hr.nodup hk).mp hmem
    · have hsince : since r.key (.set c :: h) = [] := if_pos heq
      have hk : r.key = c.key := by
        by_contra hk
        exact heq (bindingOf_congr hr.nodup (hs.nodup hr.nodup) fun r' hr' =>
          hs.mem_iff hr.nodup (hr' ▸ hk))
      have hnew := (hs.own hr.nodup hmem hk).resolve_left fun hold => heq <| by
        rw [bindingOf_of_mem (hs.nodup hr.nodup) hmem, bindingOf_of_mem hr.nodup hold]
      rw [hsince, hnew.2]
      rfl

theorem Ran.packet {h : History} (hr : Ran h) (p : Packet) : Ran (.packet p :: h) := by
  refine ⟨?_, fun r hmem => ?_, fun r hmem hrun => ?_⟩
  · change ((serve (after h) p).1.map MockPacketTrigger.key).Nodup
    rw [serve_keys]
    exact hr.nodup
  · obtain ⟨old, hold, n, heq⟩ := mem_serve hmem
    have hs := hr.sound old hold
    rw [heq]
    exact ⟨hs.maskLen, hs.matchLen, hs.selector⟩
  · obtain ⟨old, hold, n, heq⟩ := mem_serve hmem
    rw [heq] at hrun ⊢
    have hsince : since old.key (.packet p :: h) = p :: since old.key h :=
      if_neg (not_not.mpr (bindingOf_serve (after h) p old.key))
    have hlast := lastMet_cons old p (since old.key h)
    rw [← hsince, ← hr.live old hold hrun] at hlast
    change (observeFor p old).live = lastMet old (since old.key (.packet p :: h))
    rw [hlast, observeFor_eq]
    have hrun : old.isRun := hrun
    by_cases hon : onStream old p <;> simp [hon, hrun]

/-- Every history leaves the triggers' runs as the packets since their binding say. -/
theorem ran (h : History) : Ran h := by
  induction h with
  | nil => exact ⟨List.nodup_nil, fun r hr => absurd hr List.not_mem_nil,
      fun r hr => absurd hr List.not_mem_nil⟩
  | cons e h ih =>
    cases e with
    | set c => exact ih.set c
    | packet p => exact ih.packet p

/-- How a packet is answered: the chosen trigger alone is charged a hit, and runs its action unless
it is a run that was live. -/
inductive Served (rows : Rows) (p : Packet) : Rows × Option UInt8 × Bool → Prop
  | unmatched {rows' : Rows} (unmatched : ∀ r ∈ rows, ¬Matches r p)
      (hits : rows'.map (·.hits.toNat) = rows.map (·.hits.toNat)) :
      Served rows p (rows', none, false)
  | charged {rows' : Rows} {i : Nat} {r : MockPacketTrigger} (chosen : Chosen rows p i r)
      (hits : rows'.map (·.hits.toNat) =
        (rows.map (·.hits.toNat)).modify i fun n => min (n + 1) (2 ^ 32 - 1)) :
      Served rows p (rows', if r.isRun ∧ r.live then none else some r.action,
        decide (r.flags &&& clipTrigFConsume ≠ 0))

theorem hits_observeFor (p : Packet) (r : MockPacketTrigger) : (observeFor p r).hits = r.hits := by
  rw [observeFor_eq]
  split <;> rfl

theorem hits_hit (r : MockPacketTrigger) :
    r.hit.hits.toNat = min (r.hits.toNat + 1) (2 ^ 32 - 1) := by
  rw [MockPacketTrigger.hit, UInt32.toNat_ofNat']
  exact Nat.mod_eq_of_lt (by omega)

theorem serve_served {rows : Rows} (h : ∀ r ∈ rows, r.mask.length ≤ pktMatchMax) (p : Packet) :
    Served rows p (serve rows p) := by
  have hhits : (rows.map (observeFor p)).map (·.hits.toNat) = rows.map (·.hits.toNat) := by
    rw [List.map_map]
    exact List.map_congr_left fun r _ => congrArg UInt32.toNat (hits_observeFor p r)
  have hbest : Top.Best (scoreFor p) rows (Top.top (scoreFor p) rows) := Top.best_top rows
  cases htop : Top.top (scoreFor p) rows with
  | none =>
    rw [htop] at hbest
    rw [serve_none htop]
    exact .unmatched (fun r hr => score_eq_none.mp (hbest r hr)) hhits
  | some top =>
    obtain ⟨i, s⟩ := top
    rw [htop] at hbest
    obtain ⟨r, hchosen⟩ := chosen_of_first h hbest
    rw [serve_some htop hchosen.row]
    refine .charged hchosen ?_
    rw [← hhits]
    exact map_modify (f := fun r : MockPacketTrigger => r.hits.toNat)
      (k := fun n => min (n + 1) (2 ^ 32 - 1)) hits_hit _ _

/-- After every history a run is live exactly if the last packet of its stream since its binding
last changed matched in full, and a packet is answered by the trigger that ranks first. -/
theorem packets_rank_and_run (h : History) :
    (∀ r ∈ after h, r.isRun → r.live = lastMet r (since r.key h)) ∧
      ∀ p, Served (after h) p (serve (after h) p) := by
  refine ⟨(ran h).live, serve_served fun r hr => ?_⟩
  have hs := (ran h).sound r hr
  rw [hs.maskLen]
  exact hs.matchLen

end Medius.Packets
