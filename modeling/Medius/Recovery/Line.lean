import Medius.Link.Operation
import Medius.Recovery.Rules

/-! A line that keeps the order of its frames, and the keepalive's state by what the other threads
leave of it. -/

namespace Medius.Recovery.Counter

open Protocol Link Keepalive Thread Medius.Types

inductive Frame
  | firstHello
  | secondHello
  | reply (id : Option Nat) (reply : Reply)

/-- The box and the line from it: `wire` is what the reader has not read yet, `asked` the queries
the box has not answered, `waiting` the one the keepalive waits for and `got` its answer.  A box
that has booted says hello again (`greeted`) before its first reply.  `firstRead` counts the boots
whose first hello has been read, and `secondRead` says whether the last of them has its second
read. -/
structure Line where
  wire : List Frame := []
  asked : List Nat := []
  nextId : Nat := 0
  waiting : Option Nat := none
  got : Option Reply := none
  greeted : Bool
  firstRead : Nat := 0
  secondRead : Bool

abbrev State := Shared Line

/-- The frame is written and its reply waited for, or the write fails. -/
def send (_ : Query) : Program Line Bool := .atomic fun s i =>
  match i with
  | .choice true => some ({ s with env := { s.env with
      asked := s.env.asked ++ [s.env.nextId]
      nextId := s.env.nextId + 1
      waiting := some s.env.nextId
      got := none } }, true)
  | .choice false => some (s, false)
  | _ => none

/-- The reply, or a timeout. -/
def receive : Program Line (Option Reply) := .atomic fun s i =>
  let rested := { s with env := { s.env with waiting := none, got := none } }
  match i with
  | .go => s.env.got.map fun r => (rested, some r)
  | .choice false => some (rested, none)
  | _ => none

def ask (q : Query) : Program Line (Option Reply) := do
  if ← send q then receive else return none

/-- The re-send goes through or fails. -/
def resend : Program Line Bool := clock

def keep : Program Line Unit := return ()

def loop : Program Line Unit := turn ask ask resend keep

inductive Other
  | boot
  | greet
  | answer (k : Nat) (reply : Reply)
  | chatter (reply : Reply)
  | read
  | perform (op : DesiredOp)

def readFrame (s : State) (wire : List Frame) : Frame → State
  | .firstHello =>
    { s.noteHello (some protoVer) false with env := { s.env with
        wire, firstRead := s.env.firstRead + 1, secondRead := false } }
  | .secondHello =>
    { s.noteHello (some protoVer) false with env := { s.env with wire, secondRead := true } }
  | .reply id reply =>
    { s.noteReply with env := { s.env with
        wire
        got := if id.isSome ∧ id = s.env.waiting then some reply else s.env.got } }

def others (s : State) : Other → Option State
  | .boot => some { s with env := { s.env with
      wire := s.env.wire ++ [.firstHello], greeted := false } }
  | .greet =>
    if s.env.greeted then none
    else some { s with env := { s.env with
      wire := s.env.wire ++ [.secondHello], greeted := true } }
  | .answer k reply =>
    match s.env.asked[k]? with
    | some id =>
      if s.env.greeted then
        some { s with env := { s.env with
          wire := s.env.wire ++ [.reply (some id) reply], asked := s.env.asked.eraseIdx k } }
      else none
    | none => none
  | .chatter reply =>
    if s.env.greeted then
      some { s with env := { s.env with wire := s.env.wire ++ [.reply none reply] } }
    else none
  | .read =>
    match s.env.wire with
    | frame :: wire => some (readFrame s wire frame)
    | [] => none
  | .perform op => some { s with desired := s.desired.perform op }

def Moves (s s' : State) : Prop := ∃ l, others s l = some s'

def next := Thread.next others fun _ => some loop

/-- A link opened to a box that has said its second hello, or will on the first frame it
hears. -/
def start (greeted : Bool) : State := { env := { greeted, secondRead := greeted } }

/-- A hello has moved the counter since a recovery last sampled it. -/
def helloSinceSample : List Event → Bool
  | [] => false
  | .hello :: _ => true
  | .sampled :: _ => false
  | _ :: log => helloSinceSample log

/-- No recovery from a release takes the boot flag after a hello it has not sampled. -/
def Timely : List Event → Prop
  | [] => True
  | .took .released :: log => helloSinceSample log = false ∧ Timely log
  | _ :: log => Timely log

instance decidableTimely : (log : List Event) → Decidable (Timely log)
  | [] => .isTrue trivial
  | .took .released :: log =>
    have := decidableTimely log
    inferInstanceAs (Decidable (helloSinceSample log = false ∧ Timely log))
  | .took .restart :: log | .hello :: log | .released :: log | .emptied :: log
  | .loaded :: log | .sampled :: log | .began :: log | .resent :: log | .recovered :: log
  | .looked :: log | .answered _ _ _ :: log | .glanced :: log => decidableTimely log

/-- Whether frames read from here on, second hello read or not, keep the order, and whether the
box has then said its second hello. -/
def order : Bool → List Frame → Option Bool
  | greeted, [] => some greeted
  | _, .firstHello :: wire => order false wire
  | greeted, .secondHello :: wire => if greeted then none else order true wire
  | greeted, .reply _ _ :: wire => if greeted then order true wire else none

theorem order_append (greeted : Bool) (wire wire' : List Frame) :
    order greeted (wire ++ wire') = (order greeted wire).bind fun g => order g wire' := by
  induction wire generalizing greeted with
  | nil => rfl
  | cons frame wire ih =>
    cases frame with
    | firstHello => exact ih false
    | secondHello | reply =>
      simp only [List.cons_append, order]
      split
      · first | rfl | exact ih true
      · first | rfl | exact ih true

/-- What the bookkeeping is about. -/
structure View where
  watch : Watch
  restarts : Nat
  pending : Option Cause
  firstRead : Nat
  secondRead : Bool
  late : Bool

def view (s : State) : View :=
  ⟨s.watch, s.restarts, s.pending, s.env.firstRead, s.env.secondRead, helloSinceSample s.log⟩

namespace View

def hello (v : View) : View :=
  let watch := v.watch.noteHello (some protoVer) false
  { v with watch, late := if watch.hellos = v.watch.hellos then v.late else true }

/-- What the reader does to it. -/
inductive Heard : View → View → Prop
  | nothing (v : View) : Heard v v
  | reply {v : View} : v.secondRead = true → Heard v { v with watch := v.watch.noteReply }
  | first (v : View) :
      Heard v { v.hello with firstRead := v.firstRead + 1, secondRead := false }
  | second {v : View} : v.secondRead = false → Heard v { v.hello with secondRead := true }

/-- Every restart counted, and every one that is about to be, has a boot of its own. -/
structure Covered (v : View) : Prop where
  counted : v.restarts ≤ v.firstRead
  owed : v.watch.owed = true → v.restarts + 1 ≤ v.firstRead
  booted : v.watch.booted = true → v.restarts + 1 ≤ v.firstRead
  greeting : v.secondRead = false → v.restarts + 1 ≤ v.firstRead ∨
    v.watch.armed = false ∧ v.watch.recovering = false
  unarmed : v.secondRead = false → v.watch.recovering = true ∨ v.watch.armed = false

theorem hello_cases (v : View) :
    v.watch.recovering = true ∧ v.hello = { v with
        watch := { v.watch with hellos := v.watch.hellos + 1, booted := true }, late := true } ∨
      v.watch.recovering = false ∧ v.watch.armed = false ∧ v.hello = v ∨
      v.watch.recovering = false ∧ v.watch.armed = true ∧ v.hello = { v with
        watch := { v.watch with
          armed := false, recovering := true, owed := true, hellos := v.watch.hellos + 1 }
        late := true } := by
  obtain ⟨⟨armed, recovering, owed, hellos, booted, session⟩, r, p, f, second, late⟩ := v
  cases recovering <;> cases armed <;> simp [hello, Watch.noteHello]

/-- The count has nothing to do with what is pending, the last sample or the session. -/
theorem Covered.aside {v : View} (h : v.Covered) (pending : Option Cause) (late : Bool)
    (session : Option UInt16) :
    ({ v with pending, late, watch := { v.watch with session } } : View).Covered :=
  ⟨h.counted, h.owed, h.booted, h.greeting, h.unarmed⟩

theorem Covered.heard {v v' : View} (h : v.Covered) (hv : Heard v v') : v'.Covered := by
  obtain ⟨hc, ho, hb, hg, hu⟩ := h
  cases hv with
  | nothing => exact ⟨hc, ho, hb, hg, hu⟩
  | reply hs =>
    have hread : v.secondRead ≠ false := by simp [hs]
    exact ⟨hc, ho, hb, fun h => absurd h hread, fun h => absurd h hread⟩
  | first =>
    have hnew : v.restarts + 1 ≤ v.firstRead + 1 := Nat.succ_le_succ hc
    obtain ⟨hr, he⟩ | ⟨hr, ha, he⟩ | ⟨hr, ha, he⟩ := v.hello_cases
    · rw [he]
      exact ⟨Nat.le_succ_of_le hc, fun _ => hnew, fun _ => hnew, fun _ => .inl hnew,
        fun _ => .inl hr⟩
    · rw [he]
      exact ⟨Nat.le_succ_of_le hc, fun _ => hnew, fun _ => hnew, fun _ => .inl hnew,
        fun _ => .inr ha⟩
    · rw [he]
      exact ⟨Nat.le_succ_of_le hc, fun _ => hnew, fun _ => hnew, fun _ => .inl hnew,
        fun _ => .inl rfl⟩
  | second hs =>
    obtain ⟨hr, he⟩ | ⟨hr, ha, he⟩ | ⟨hr, ha, he⟩ := v.hello_cases
    · rw [he]
      have hfirst := (hg hs).resolve_right fun h => absurd (hr.symm.trans h.2) nofun
      exact ⟨hc, ho, fun _ => hfirst, nofun, nofun⟩
    · rw [he]
      exact ⟨hc, ho, hb, nofun, nofun⟩
    · obtain hu | hu := hu hs
      · exact absurd (hr.symm.trans hu) nofun
      · exact absurd (ha.symm.trans hu) nofun

end View

open View

/-- The line keeps its order, and the count is covered in a timely history. -/
structure Inv (s : State) : Prop where
  order : order s.env.secondRead s.env.wire = some s.env.greeted
  covered : Timely s.log → (view s).Covered

structure Moved (s s' : State) : Prop where
  order : Counter.order s'.env.secondRead s'.env.wire = some s'.env.greeted
  heard : Heard (view s) (view s')
  timely : Timely s'.log → Timely s.log
  got : s'.env.got.isSome → s.env.got.isSome ∨ s'.env.secondRead = true

theorem timely_noteHello {s : State} (h : Timely (s.noteHello (some protoVer) false).log) :
    Timely s.log := by
  simp only [Shared.noteHello] at h
  split at h <;> exact h

theorem late_noteHello (s : State) :
    helloSinceSample (s.noteHello (some protoVer) false).log = (view s).hello.late :=
  apply_ite helloSinceSample ((s.watch.noteHello (some protoVer) false).hellos = s.watch.hellos)
    s.log (.hello :: s.log)

theorem moved_readFrame {s : State} {frame : Frame} {wire : List Frame}
    (ho : order s.env.secondRead (frame :: wire) = some s.env.greeted) :
    Moved s (readFrame s wire frame) := by
  cases frame with
  | firstHello =>
    refine ⟨ho, ?_, timely_noteHello, .inl⟩
    have hv : view (readFrame s wire .firstHello) = { (view s).hello with
        firstRead := (view s).firstRead + 1, secondRead := false } := by
      change View.mk _ _ _ _ _ (helloSinceSample (s.noteHello (some protoVer) false).log) = _
      rw [late_noteHello]
      rfl
    rw [hv]
    exact .first _
  | secondHello =>
    have hs : s.env.secondRead = false := by
      cases h : s.env.secondRead with
      | false => rfl
      | true => simp [order, h] at ho
    have hv : view (readFrame s wire .secondHello) = { (view s).hello with
        secondRead := true } := by
      change View.mk _ _ _ _ _ (helloSinceSample (s.noteHello (some protoVer) false).log) = _
      rw [late_noteHello]
      rfl
    rw [hs] at ho
    refine ⟨ho, ?_, timely_noteHello, .inl⟩
    rw [hv]
    exact .second hs
  | reply id reply =>
    have hs : s.env.secondRead = true := by
      cases h : s.env.secondRead with
      | true => rfl
      | false => simp [order, h] at ho
    refine ⟨?_, .reply hs, fun h => h, fun _ => .inr hs⟩
    rw [hs] at ho
    change order s.env.secondRead wire = _
    rw [hs]
    exact ho

theorem moved_of_moves {s s' : State} (ho : order s.env.secondRead s.env.wire = some s.env.greeted)
    (h : Moves s s') : Moved s s' := by
  have hsend : ∀ {frame : Frame} {g : Bool}, order s.env.greeted [frame] = some g →
      order s.env.secondRead (s.env.wire ++ [frame]) = some g := fun hf => by
    rw [order_append, ho]
    exact hf
  obtain ⟨l, hl⟩ := h
  cases l with
  | boot =>
    cases hl
    exact ⟨hsend rfl, .nothing _, fun h => h, .inl⟩
  | greet =>
    simp only [others] at hl
    split at hl
    · cases hl
    next hg =>
      cases hl
      exact ⟨hsend (by simp [order, hg]), .nothing _, fun h => h, .inl⟩
  | answer k reply =>
    simp only [others] at hl
    split at hl
    · split at hl
      next hg =>
        cases hl
        exact ⟨hsend (by simp [order, hg]), .nothing _, fun h => h, .inl⟩
      · cases hl
    · cases hl
  | chatter reply =>
    simp only [others] at hl
    split at hl
    next hg =>
      cases hl
      exact ⟨hsend (by simp [order, hg]), .nothing _, fun h => h, .inl⟩
    · cases hl
  | read =>
    simp only [others] at hl
    cases hw : s.env.wire with
    | nil => rw [hw] at hl; cases hl
    | cons frame wire =>
      rw [hw] at hl ho
      cases hl
      exact moved_readFrame ho
  | perform op =>
    cases hl
    exact ⟨ho, .nothing _, fun h => h, .inl⟩

abbrev About (p : View → Prop) (s : State) : Prop := Timely s.log → p (view s)

/-- Kept by whatever the reader reads. -/
abbrev Kept (p : View → Prop) : Prop := ∀ v v', v.Covered → p v → Heard v v' → p v'

theorem Inv.moved {s s' : State} (h : Inv s) (hm : Moves s s') : Inv s' :=
  have hmoved := moved_of_moves h.order hm
  ⟨hmoved.order, fun ht => (h.covered (hmoved.timely ht)).heard hmoved.heard⟩

theorem stable_about {p : View → Prop} (hp : Kept p) : Stable Moves Inv (About p) := by
  intro s s' hI hP hm
  have hmoved := moved_of_moves hI.order hm
  refine ⟨hI.moved hm, fun ht => ?_⟩
  have ht' := hmoved.timely ht
  exact hp _ _ (hI.covered ht') (hP ht') hmoved.heard

theorem triple_about {β : Type} {f : State → State × β} {p : View → Prop}
    {q : β → View → Prop} (hp : Kept p) (hq : ∀ b, Kept (q b))
    (henv : ∀ s, (f s).1.env = s.env) (htimely : ∀ s, Timely (f s).1.log → Timely s.log)
    (h : ∀ s, Timely (f s).1.log → (view s).Covered → p (view s) →
      (view (f s).1).Covered ∧ q (f s).2 (view (f s).1)) :
    Triple Moves Inv (About p) (access f) fun b => About (q b) := by
  refine triple_access (stable_about hp) (fun b => stable_about (hq b)) fun s hI hP => ?_
  have hboth := fun ht => h s ht (hI.covered (htimely s ht)) (hP (htimely s ht))
  refine ⟨⟨?_, fun ht => (hboth ht).1⟩, fun ht => (hboth ht).2⟩
  rw [henv]
  exact hI.order

/-- An access of nothing that is counted. -/
theorem triple_keeps {β : Type} {f : State → State × β} {p : View → Prop} (hp : Kept p)
    (henv : ∀ s, (f s).1.env = s.env) (htimely : ∀ s, Timely (f s).1.log → Timely s.log)
    (hview : ∀ s, view (f s).1 = view s) :
    Triple Moves Inv (About p) (access f) fun _ => About p :=
  triple_about hp (fun _ => hp) henv htimely fun s _ hc hs => by
    rw [hview]
    exact ⟨hc, hs⟩

/-- While a reply is waited for: `q` once it has been read. -/
def Waiting (p q : View → Prop) (s : State) : Prop :=
  Timely s.log → p (view s) ∧ (s.env.got.isSome → q (view s))

/-- A reply says that the reader has read the second hello of the boot it comes from. -/
theorem triple_ask {p q : View → Prop} (hp : Kept p) (hq : Kept q)
    (hpq : ∀ v, v.Covered → p v → v.secondRead = true → q v) (query : Query) :
    Triple Moves Inv (About p) (ask query) (answered (About p) (About q)) := by
  have hstop : Triple Moves Inv (About p) (pure none : Program Line (Option Reply))
      (answered (About p) (About q)) := Triple.pure _ (stable_about hp) fun _ _ h => h
  have hW : Stable Moves Inv (Waiting p q) := by
    intro s s' hI hP hm
    have hmoved := moved_of_moves hI.order hm
    refine ⟨hI.moved hm, fun ht => ?_⟩
    have ht' := hmoved.timely ht
    have hc := hI.covered ht'
    have hp' := hp _ _ hc (hP ht').1 hmoved.heard
    refine ⟨hp', fun hg => ?_⟩
    obtain hg | hread := hmoved.got hg
    · exact hq _ _ hc ((hP ht').2 hg) hmoved.heard
    · exact hpq _ (hc.heard hmoved.heard) hp' hread
  have hsend : Triple Moves Inv (About p) (send query) fun sent =>
      if sent then Waiting p q else About p := by
    refine Triple.atomic (stable_about hp) (fun sent => ?_) fun s i s' sent hI hP hf => ?_
    · cases sent with
      | true => exact hW
      | false => exact stable_about hp
    · cases i with
      | choice b =>
        cases b with
        | true =>
          cases hf
          exact ⟨⟨hI.order, hI.covered⟩, fun ht => ⟨hP ht, nofun⟩⟩
        | false =>
          cases hf
          exact ⟨hI, hP⟩
      | _ => cases hf
  have hreceive : Triple Moves Inv (Waiting p q) receive (answered (About p) (About q)) := by
    refine Triple.atomic hW
      (fun r => stable_answered (stable_about hp) (stable_about hq) r)
      fun s i s' r hI hP hf => ?_
    cases i with
    | go =>
      obtain ⟨reply, hgot, he⟩ := Option.map_eq_some_iff.mp hf
      cases he
      exact ⟨⟨hI.order, hI.covered⟩, fun ht => (hP ht).2 (by simp [hgot])⟩
    | choice b =>
      cases b with
      | true => cases hf
      | false =>
        cases hf
        exact ⟨⟨hI.order, hI.covered⟩, fun ht => (hP ht).1⟩
    | reply => cases hf
  refine hsend.bind fun sent => ?_
  cases sent with
  | true => exact hreceive
  | false => exact hstop

end Medius.Recovery.Counter
