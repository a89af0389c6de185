/-
# Daemon.Steps -- the small steps that the stages of the main loop are made of

`Work` lists what handling input and device events does to a client and to what it shares,
`Step` adds what the main loop does itself, each with the facts main.c has tested when it
does it.  Every stage walks a path of them (`attend_path`, `spnavEvent_path`), so that an
invariant of the steps is an invariant of the main loop, whatever the stages are made of.
-/
import SpnavBridge.Daemon.EventLoop
import SpnavBridge.Theory.Paths

namespace SpnavBridge.Daemon

open SpnavBridge.Theory SpnavBridge.Wire SpnavBridge.Kernel

set_option autoImplicit false
set_option linter.unusedSectionVars false

variable {D F : Type} [CFloat F] [CDouble D F]

/-! ## Steps -/

/-- Some request asked for this sensitivity. -/
def Asked (p : Platform D) (value : F) : Prop :=
  ∃ body, requestedSensitivity p.toOutside body = some value

/-- The act says nothing about the client. -/
def Act.plain : Act F → Bool
  | .request _ _ => true
  | .reject => true
  | .readOut => true
  | _ => false

/-- The handshake is over, or there is a controller. -/
def Client.active (cl : Client F) : Prop := cl.phase ≠ .tls ∨ cl.ctrl ≠ none

/-- What shares a step: all clients' data, and the client. -/
abbrev Place (F : Type) := Shared F × Client F

/-- What handling input and device events does at once, with the events it puts out. -/
inductive Work (p : Platform D) : Place F → List (Event F) → Place F → Prop
  | outside {sh : Shared F} {cl : Client F} (calls : Nat) (later : sh.calls ≤ calls) :
      Work p (sh, cl) [] ({ sh with calls }, cl)
  | saves {sh : Shared F} {cl : Client F} (saved : Option CStr) :
      Work p (sh, cl) [] ({ sh with saved }, cl)
  | notes {s : Place F} (act : Act F) (plain : act.plain = true) : Work p s [.act act] s
  | fails {sh : Shared F} {cl : Client F} : Work p (sh, cl) [] (sh, cl.fail)
  | queues {sh : Shared F} {cl : Client F} (data : List UInt8) (active : cl.active) :
      Work p (sh, cl) [.output (cl.out.queueOutput (p.clock sh.calls) data).2]
        (sh, { cl with out := (cl.out.queueOutput (p.clock sh.calls) data).1 })
  | assigns {sh : Shared F} {cl : Client F} (value : F) (asked : Asked p value) :
      Work p (sh, cl) [.act (.assign value)]
        ({ sh with sensitivity := value }, cl.assign value)
  | upgrades {sh : Shared F} {cl : Client F} (created : Controller F)
      (http : cl.phase = .http) :
      Work p (sh, cl) [.phase .ws]
        (sh, { cl with
          ctrl := some (controllerSetSensitivity created sh.sensitivity).1
          phase := .ws })
  | closes {sh : Shared F} {cl : Client F} (open_ : cl.phase = .http ∨ cl.phase = .ws) :
      Work p (sh, cl) [.phase .closing] (sh, { cl with phase := .closing })
  | opens {sh : Shared F} {cl : Client F} (opcode : UInt8)
      (data : opcode = wsOpText ∨ opcode = wsOpBin) :
      Work p (sh, cl) [] (sh, { cl with msgOpcode := opcode.toNat, msgbuf := [] })
  | appends {sh : Shared F} {cl : Client F} (payload : List UInt8) (text : Stage.isText cl)
      (room : cl.msgbuf.length + payload.length ≤ msgBufSize) :
      Work p (sh, cl) [] (sh, { cl with msgbuf := cl.msgbuf ++ payload })
  | ends {sh : Shared F} {cl : Client F} :
      Work p (sh, cl) [] (sh, { cl with msgOpcode := -1, msgbuf := [] })
  | delivers {sh : Shared F} {cl : Client F} (ctrl : Controller F) (e : Env)
      (ws : cl.phase = .ws) (held : cl.ctrl = some ctrl) :
      Work p (sh, cl)
        [.act (.message cl.msgbuf (controllerOnMessage p.lib e ctrl cl.msgbuf).2.2)]
        (sh, { cl with ctrl := some (controllerOnMessage p.lib e ctrl cl.msgbuf).1 })
  | moves {sh : Shared F} {cl : Client F} (ctrl : Controller F) (e : Env) (ev : SbEvent)
      (held : cl.ctrl = some ctrl) :
      Work p (sh, cl) []
        (sh, { cl with ctrl := some (controllerOnSpnavEvent (D := D) e ctrl ev).1 })

/-- Work that leaves the client in its phase. -/
def Still (p : Platform D) (s : Place F) (events : List (Event F)) (s' : Place F) : Prop :=
  Work p s events s' ∧ s'.2.phase = s.2.phase

/-- What serving a client does at once.  A client changes its phase only while no read of it
waits. -/
inductive Step (p : Platform D) : Place F → List (Event F) → Place F → Prop
  | works {s s' : Place F} {events : List (Event F)} (work : Work p s events s')
      (idle : s'.2.phase = s.2.phase ∨ s.2.readWait = 0) : Step p s events s'
  | checks {s : Place F} (now : Int) : Step p s [.checked now] s
  | consumes {sh : Shared F} {cl : Client F} (rest : List UInt8)
      (fits : rest.length ≤ inputBufSize) (open_ : cl.phase ≠ .tls) (quiet : cl.readWait = 0) :
      Step p (sh, cl) [] (sh, { cl with inbuf := rest })
  | accepts {sh : Shared F} {cl : Client F} (tls : cl.phase = .tls) :
      Step p (sh, cl) [.sslAccept .done, .phase .http] (sh, { cl with phase := .http })
  | acceptWants {sh : Shared F} {cl : Client F} (wait : UInt16) (verdict : AcceptVerdict)
      (tls : cl.phase = .tls) (either : wait = pollIn ∨ wait = pollOut) :
      Step p (sh, cl) [.sslAccept verdict] (sh, { cl with tlsWait := wait })
  | acceptFails {sh : Shared F} {cl : Client F} (tls : cl.phase = .tls) :
      Step p (sh, cl) [.sslAccept .failed] (sh, cl.fail)
  | flushes {sh : Shared F} {cl : Client F} (ssl : (len : Nat) → WriteResult len)
      (open_ : cl.phase ≠ .tls) (readFree : cl.readWait ≠ pollOut) :
      Step p (sh, cl) ((cl.out.flushOutput (p.clock sh.calls) ssl).2.toList.map .output)
        (sh, { cl with out := (cl.out.flushOutput (p.clock sh.calls) ssl).1 })
  | reads {sh : Shared F} {cl : Client F} (chunk : List UInt8)
      (open_ : cl.phase = .http ∨ cl.phase = .ws) (writeFree : cl.out.writeLen = 0)
      (fits : cl.inbuf.length + chunk.length ≤ inputBufSize) :
      Step p (sh, cl) [.sslRead (.got chunk)]
        (sh, { cl with readWait := 0, inbuf := cl.inbuf ++ chunk })
  | readWants {sh : Shared F} {cl : Client F} (wait : UInt16) (verdict : ReadVerdict)
      (open_ : cl.phase = .http ∨ cl.phase = .ws) (writeFree : cl.out.writeLen = 0)
      (room : cl.inbuf.length ≠ inputBufSize)
      (which : (verdict = .wantRead ∧ wait = pollIn) ∨
        (verdict = .wantWrite ∧ wait = pollOut)) :
      Step p (sh, cl) [.sslRead verdict] (sh, { cl with readWait := wait })
  | readFails {sh : Shared F} {cl : Client F} (open_ : cl.phase = .http ∨ cl.phase = .ws)
      (writeFree : cl.out.writeLen = 0) : Step p (sh, cl) [.sslRead .failed] (sh, cl.fail)

/-- The stage walks a path of `R` from here. -/
def Walks (R : Place F → List (Event F) → Place F → Prop) (stage : Stage F) (s : Place F) :
    Prop :=
  Path R s (stage s.1 s.2).events ((stage s.1 s.2).shared, (stage s.1 s.2).client)

theorem Walks.andThen {R : Place F → List (Event F) → Place F → Prop} {s : Place F}
    {d : Outcome F} {next : Stage F} (first : Path R s d.events (d.shared, d.client))
    (second : Walks R next (d.shared, d.client)) :
    Path R s (d.andThen next).events ((d.andThen next).shared, (d.andThen next).client) :=
  first.trans second

/-! ## Acts of the handlers -/

section Acts

variable (p : Platform D)

/-- Output, and whatever else a handler reports without a message. -/
def Tame (act : Act F) : Prop :=
  (∀ value, act = .assign value → Asked p value) ∧ ∀ payload rc, act ≠ .message payload rc

/-- The act queues data, or has a message that fits no frame. -/
def Act.isOutput : Act F → Bool
  | .queue _ => true
  | .reject => true
  | _ => false

variable {p}

theorem tame_of_output {act : Act F} (output : act.isOutput = true) : Tame p act := by
  cases act with
  | queue data => exact ⟨by simp, by simp⟩
  | reject => exact ⟨by simp, by simp⟩
  | request req body => cases output
  | message payload rc => cases output
  | assign value => cases output
  | readOut => cases output

theorem isOutput_sendHttpResponse (status : Nat) (statusText extraHeaders body : CStr) :
    ∀ act ∈ (sendHttpResponse status statusText extraHeaders body : List (Act F)),
      act.isOutput = true := by
  intro act inside
  unfold sendHttpResponse at inside
  split_ifs at inside with empty
  · rw [List.mem_singleton.mp inside]
    rfl
  · rcases List.mem_cons.mp inside with rfl | inside
    · rfl
    · rw [List.mem_singleton.mp inside]
      rfl

theorem isOutput_clientSend (o : Outside D) (m : Message D) :
    (clientSend o m : Act F).isOutput = true := by
  unfold clientSend
  split <;> rfl

theorem isOutput_clientSends (o : Outside D) (sends : List (Message D)) :
    ∀ act ∈ (sends.map (clientSend o) : List (Act F)), act.isOutput = true := by
  intro act inside
  obtain ⟨m, -, rfl⟩ := List.mem_map.mp inside
  exact isOutput_clientSend o m

theorem isOutput_pong (payload : List UInt8) :
    ∀ act ∈ (pong payload : List (Act F)), act.isOutput = true := by
  intro act inside
  unfold pong at inside
  split at inside
  · rw [List.mem_singleton.mp inside]
    rfl
  · cases inside

theorem isOutput_handleWsUpgrade (o : Outside D) (w : World F) (req : HttpRequest) :
    ∀ act ∈ (handleWsUpgrade o w req).2.2, act.isOutput = true := by
  intro act inside
  unfold handleWsUpgrade at inside
  split at inside
  · exact isOutput_sendHttpResponse _ _ _ _ act inside
  · dsimp only at inside
    split at inside
    · exact isOutput_sendHttpResponse _ _ _ _ act inside
    · rcases List.mem_cons.mp inside with rfl | inside
      · rfl
      · exact isOutput_clientSends o _ act inside

theorem tame_handleSensitivityRequest (w : World F) (req : HttpRequest) (body : List UInt8) :
    ∀ act ∈ (handleSensitivityRequest p.toOutside w req body).2, Tame p act := by
  have reports : ∀ w hdr, ∀ act ∈ (reportSensitivity p.toOutside w hdr : List (Act F)),
      Tame p act := by
    intro w hdr act inside
    rcases List.mem_cons.mp inside with rfl | inside
    · exact ⟨by simp, by simp⟩
    · exact tame_of_output (isOutput_sendHttpResponse _ _ _ _ act inside)
  intro act inside
  unfold handleSensitivityRequest at inside
  split at inside
  · exact tame_of_output (isOutput_sendHttpResponse _ _ _ _ act inside)
  · dsimp only at inside
    split at inside
    · cases asked : requestedSensitivity p.toOutside body with
      | none =>
          rw [asked] at inside
          exact tame_of_output (isOutput_sendHttpResponse _ _ _ _ act inside)
      | some value =>
          rw [asked] at inside
          rcases List.mem_cons.mp inside with rfl | inside
          · refine ⟨?_, by simp⟩
            rintro value' same
            injection same with same
            exact ⟨body, same ▸ asked⟩
          · exact reports _ _ act inside
    · split at inside
      · exact tame_of_output (isOutput_sendHttpResponse _ _ _ _ act inside)
      · exact reports _ _ act inside

theorem tame_handleHttpRequest (w : World F) (req : HttpRequest) (body : List UInt8) :
    ∀ act ∈ (handleHttpRequest p.toOutside w req body).2.2, Tame p act := by
  intro act inside
  unfold handleHttpRequest at inside
  split at inside
  · exact tame_of_output (isOutput_handleWsUpgrade _ _ _ act inside)
  · dsimp only [handlePlainRequest] at inside
    split at inside
    · exact tame_of_output (isOutput_sendHttpResponse _ _ _ _ act inside)
    · split at inside
      · exact tame_of_output (isOutput_sendHttpResponse _ _ _ _ act inside)
      · split at inside
        · exact tame_handleSensitivityRequest w req body act inside
        · exact tame_of_output (isOutput_sendHttpResponse _ _ _ _ act inside)

/-- A new controller comes from an upgrade, which only queues output. -/
theorem handleHttpRequest_upgrades {w : World F} {req : HttpRequest} {body : List UInt8}
    {ctrl : Controller F} (upgraded : (handleHttpRequest p.toOutside w req body).2.1 = some ctrl) :
    (∃ created, ctrl = (controllerSetSensitivity created w.sensitivity).1) ∧
      ∀ act ∈ (handleHttpRequest p.toOutside w req body).2.2, act.isOutput = true := by
  unfold handleHttpRequest at upgraded ⊢
  split at upgraded
  · rename_i upgrade
    rw [if_pos upgrade]
    refine ⟨?_, isOutput_handleWsUpgrade _ _ _⟩
    unfold handleWsUpgrade at upgraded
    split at upgraded
    · cases upgraded
    · dsimp only at upgraded
      split at upgraded
      · cases upgraded
      · injection upgraded with same
        exact ⟨_, same.symm⟩
  · cases upgraded

end Acts

/-! ## Stages that perform acts -/

section Perform

variable {p : Platform D}

theorem assign_phase (value : F) (cl : Client F) : (cl.assign value).phase = cl.phase := by
  unfold Client.assign
  split <;> rfl

theorem perform_path {act : Act F} (tame : Tame p act) (sh : Shared F) {cl : Client F}
    (active : cl.active) : Walks (Still p) (Stage.perform p act) (sh, cl) := by
  cases act with
  | queue data =>
      exact Theory.Path.then_ (.single ⟨.queues data active, rfl⟩) ⟨.outside _ (Nat.le_succ _), rfl⟩
  | reject => exact Theory.Path.then_ (.single ⟨.notes .reject rfl, rfl⟩) ⟨.fails, rfl⟩
  | assign value =>
      exact .single ⟨.assigns value (tame.1 value rfl), assign_phase value cl⟩
  | request req body => exact .single ⟨.notes _ rfl, rfl⟩
  | readOut => exact .single ⟨.notes _ rfl, rfl⟩
  | message payload rc => exact absurd rfl (tame.2 payload rc)

theorem perform_active (act : Act F) (sh : Shared F) {cl : Client F} (active : cl.active) :
    (Stage.perform p act sh cl).client.active := by
  cases act with
  | assign value =>
      show (cl.assign value).active
      unfold Client.assign
      split
      · refine active.imp id fun there => ?_
        show cl.ctrl.map _ ≠ none
        simpa using there
      · exact active
  | _ => exact active

theorem performAll_path {acts : List (Act F)} (tame : ∀ act ∈ acts, Tame p act)
    (sh : Shared F) {cl : Client F} (active : cl.active) :
    Walks (Still p) (Stage.performAll p acts) (sh, cl) := by
  induction acts generalizing sh cl with
  | nil => exact .nil
  | cons act acts ih =>
      have first := perform_path (tame act List.mem_cons_self) sh active
      exact first.trans (ih (fun act inside => tame act (List.mem_cons_of_mem _ inside)) _
        (perform_active act sh active))

theorem Still.works {s s' : Place F} {events : List (Event F)}
    (path : Path (Still p) s events s') : Path (Work p) s events s' :=
  path.mono (I := fun _ => True) (fun _ _ _ _ _ => trivial) (fun _ _ _ _ still => still.1) trivial

/-- Serving a client may do such work at any time. -/
theorem Still.steps {s s' : Place F} {events : List (Event F)}
    (path : Path (Still p) s events s') : Path (Step p) s events s' :=
  path.mono (I := fun _ => True) (fun _ _ _ _ _ => trivial)
    (fun _ _ _ _ still => .works still.1 (Or.inl still.2)) trivial

theorem perform_phase (act : Act F) (sh : Shared F) (cl : Client F) :
    (Stage.perform p act sh cl).client.phase = cl.phase := by
  cases act with
  | assign value => exact assign_phase value cl
  | _ => rfl

theorem performAll_phase (acts : List (Act F)) (sh : Shared F) (cl : Client F) :
    (Stage.performAll p acts sh cl).client.phase = cl.phase := by
  induction acts generalizing sh cl with
  | nil => rfl
  | cons act acts ih => exact (ih _ _).trans (perform_phase act sh cl)

/-- Output leaves the sensitivity alone. -/
theorem performAll_sensitivity {acts : List (Act F)} (output : ∀ act ∈ acts, act.isOutput = true)
    (sh : Shared F) (cl : Client F) :
    (Stage.performAll p acts sh cl).shared.sensitivity = sh.sensitivity := by
  induction acts generalizing sh cl with
  | nil => rfl
  | cons act acts ih =>
      have first := output act List.mem_cons_self
      have rest := fun act inside => output act (List.mem_cons_of_mem _ inside)
      refine (ih rest _ _).trans ?_
      cases act with
      | queue data => rfl
      | reject => rfl
      | _ => cases first

end Perform

/-! ## Requests and frames -/

section Process

variable {p : Platform D}

theorem handleRequest_path (req : HttpRequest) (body : List UInt8) {sh : Shared F}
    {cl : Client F} (http : cl.phase = .http) :
    Walks (Work p) (Stage.handleRequest p req body) (sh, cl) := by
  have tame := tame_handleHttpRequest (p := p) ⟨sh.sensitivity, [], sh.saved, sh.calls⟩ req body
  have active : cl.active := Or.inl (by rw [http]; exact ClientPhase.noConfusion)
  unfold Walks Stage.handleRequest
  generalize handled_ : handleHttpRequest p.toOutside ⟨sh.sensitivity, [], sh.saved, sh.calls⟩
    req body = handled at tame ⊢
  dsimp only
  -- up to the first act
  have front : Path (Work p) (sh, cl) [.act (.request req body)]
      ({ sh with saved := handled.1.saved, calls := sh.calls + 1 }, cl) :=
    .cons (.saves handled.1.saved) (.cons (.outside _ (Nat.le_succ _)) (.single (.notes _ rfl)))
  -- the acts, and the end of the request
  have closes : ∀ acts : List (Act F), (∀ act ∈ acts, Tame p act) →
      let d := ((Stage.note (.request req body)
        { sh with saved := handled.1.saved, calls := sh.calls + 1 } cl).andThen
          (Stage.performAll p acts)).andThen (Stage.enter .closing)
      Path (Work p) (sh, cl) d.events (d.shared, d.client) := by
    intro acts tame
    have acted := Still.works (performAll_path tame
      { sh with saved := handled.1.saved, calls := sh.calls + 1 } active)
    refine Walks.andThen (front.trans acted) (.single (.closes (Or.inl ?_)))
    exact (performAll_phase acts _ _).trans http
  cases upgraded : handled.2.1 with
  | none => exact closes handled.2.2 tame
  | some ctrl =>
      obtain ⟨⟨created, rfl⟩, output⟩ := handleHttpRequest_upgrades (handled_ ▸ upgraded)
      dsimp only
      split
      · refine Walks.andThen (front.trans (Still.works (performAll_path tame _ active))) ?_
        have same : (Stage.performAll p handled.2.2
            { sh with saved := handled.1.saved, calls := sh.calls + 1 } cl).shared.sensitivity =
              sh.sensitivity := performAll_sensitivity (handled_ ▸ output) _ _
        have step : Work p
            ((Stage.performAll p handled.2.2
              { sh with saved := handled.1.saved, calls := sh.calls + 1 } cl).shared,
            (Stage.performAll p handled.2.2
              { sh with saved := handled.1.saved, calls := sh.calls + 1 } cl).client) _ _ :=
          .upgrades created ((performAll_phase handled.2.2 _ _).trans http)
        rw [same] at step
        exact .single step
      · exact closes _ fun act inside => tame act (List.mem_of_mem_take inside)

/-- A message that is delivered closes the client or leaves it in `PHASE_WS`. -/
theorem deliver_path {sh : Shared F} {cl : Client F} (ws : cl.phase = .ws) :
    Walks (Work p) (Stage.deliver p) (sh, cl) := by
  unfold Walks Stage.deliver
  cases held : cl.ctrl with
  | none => exact .nil
  | some ctrl =>
      dsimp only
      generalize sends : controllerOnMessage p.lib (p.envs sh.calls) ctrl cl.msgbuf = done
      have delivers : Work p ({ sh with calls := sh.calls + 1 }, cl) _ _ :=
        .delivers ctrl (p.envs sh.calls) ws held
      rw [sends] at delivers
      have tame : ∀ act ∈ (done.2.1.map (clientSend p.toOutside) : List (Act F)), Tame p act :=
        fun act inside => tame_of_output (isOutput_clientSends _ _ act inside)
      have told : Path (Work p) (sh, cl)
          ([.act (.message cl.msgbuf done.2.2)] ++ (Stage.performAll p
            (done.2.1.map (clientSend p.toOutside)) { sh with calls := sh.calls + 1 }
              { cl with ctrl := some done.1 }).events) _ :=
        (Theory.Path.cons (.outside _ (Nat.le_succ _)) (.single delivers)).trans
          (Still.works (performAll_path tame _ (Or.inr (Option.some_ne_none _))))
      split
      · refine Walks.andThen told (.single (.closes (Or.inr ?_)))
        exact (performAll_phase _ _ _).trans ws
      · exact told

/-- A frame of a message that is open and has room for it. -/
theorem appendFrame_path {frame : Frame} {sh : Shared F} {cl : Client F} (ws : cl.phase = .ws)
    (room : Stage.isText cl → cl.msgbuf.length + frame.payload.length ≤ msgBufSize) :
    Walks (Work p) (Stage.appendFrame p frame) (sh, cl) := by
  unfold Walks Stage.appendFrame
  dsimp only
  generalize appended_ : (if Stage.isText cl then
    { cl with msgbuf := cl.msgbuf ++ frame.payload } else cl) = appended
  have appends : Path (Work p) (sh, cl) [] (sh, appended) ∧ appended.phase = .ws := by
    subst appended_
    split
    · rename_i text
      exact ⟨.single (.appends frame.payload text (room text)), ws⟩
    · exact ⟨.nil, ws⟩
  obtain ⟨appends, ws'⟩ := appends
  generalize told_ : (if frame.fin ∧ Stage.isText appended then Stage.deliver p sh appended
    else ⟨sh, appended, []⟩) = told
  have delivers : Path (Work p) (sh, cl) told.events (told.shared, told.client) := by
    subst told_
    split
    · exact appends.trans (deliver_path ws')
    · exact appends
  split
  · exact delivers.then_ .ends
  · exact delivers

theorem handleFrame_path (frame : Frame) {sh : Shared F} {cl : Client F} (ws : cl.phase = .ws) :
    Path (Work p) (sh, cl) (Stage.handleFrame p frame sh cl).1.events
      ((Stage.handleFrame p frame sh cl).1.shared, (Stage.handleFrame p frame sh cl).1.client) := by
  unfold Stage.handleFrame
  split
  · rename_i data
    have opened : Path (Work p) (sh, cl) [] (sh, Stage.openMessage frame.opcode cl) ∧
        (Stage.openMessage frame.opcode cl).phase = .ws := by
      unfold Stage.openMessage
      split
      · rename_i fresh
        refine ⟨.single (.opens frame.opcode ?_), ws⟩
        rcases data with text | bin | cont
        · exact Or.inl text
        · exact Or.inr bin
        · exact absurd cont fresh
      · exact ⟨.nil, ws⟩
    dsimp only
    split
    · exact opened.1.trans (.single (.closes (Or.inr opened.2)))
    · rename_i fits
      refine opened.1.trans (appendFrame_path opened.2 fun text => ?_)
      rw [not_and, not_lt] at fits
      exact fits text
  · split
    · refine Still.works
        (performAll_path (fun act inside => tame_of_output (isOutput_pong _ act inside)) _ ?_)
      exact Or.inl (by rw [ws]; exact ClientPhase.noConfusion)
    · split
      · exact .single (.closes (Or.inr ws))
      · exact .nil

/-- A turn of the loop walks a path, and leaves no more than there was. -/
theorem processTurn_path {s s' : Shared F × Client F} {buf rest : List UInt8}
    {events : List (Event F)} (turned : Stage.processTurn p s buf = some (s', rest, events)) :
    Path (Work p) s events s' ∧ rest.length ≤ buf.length := by
  unfold Stage.processTurn at turned
  dsimp only at turned
  cases phase : s.2.phase with
  | tls => simp [phase] at turned
  | closing => simp [phase] at turned
  | http =>
      simp only [phase] at turned
      have closes : Path (Work p) s [.phase .closing] (s.1, { s.2 with phase := .closing }) :=
        .single (.closes (Or.inl phase))
      cases parsed : httpParseRequest buf with
      | incomplete => simp [parsed] at turned
      | malformed =>
          rw [parsed] at turned
          cases turned
          exact ⟨closes, le_refl _⟩
      | done value =>
          obtain ⟨n, req⟩ := value
          simp only [parsed] at turned
          split_ifs at turned with large short
          · cases turned
            exact ⟨closes, le_refl _⟩
          · cases turned
            exact ⟨handleRequest_path req _ phase, by rw [List.length_drop]; omega⟩
  | ws =>
      simp only [phase] at turned
      cases decoded : wsDecodeFrame buf with
      | incomplete => simp [decoded] at turned
      | malformed =>
          rw [decoded] at turned
          cases turned
          exact ⟨.single (.closes (Or.inr phase)), le_refl _⟩
      | done frame =>
          simp only [decoded] at turned
          cases turned
          refine ⟨handleFrame_path frame phase, ?_⟩
          split
          · rw [List.length_drop]
            omega
          · exact le_refl _

/-! ## The event loop -/

/-- What work leaves alone. -/
structure SameIo (cl cl' : Client F) : Prop where
  used : cl'.used = cl.used
  fd : cl'.fd = cl.fd
  ssl : cl'.ssl = cl.ssl
  inbuf : cl'.inbuf = cl.inbuf
  writeLen : cl'.out.writeLen = cl.out.writeLen
  writeWait : cl'.out.writeWait = cl.out.writeWait
  tlsWait : cl'.tlsWait = cl.tlsWait
  readWait : cl'.readWait = cl.readWait
  acceptedAt : cl'.acceptedAt = cl.acceptedAt

theorem SameIo.trans {cl cl' cl'' : Client F} (first : SameIo cl cl') (second : SameIo cl' cl'') :
    SameIo cl cl'' where
  used := second.used.trans first.used
  fd := second.fd.trans first.fd
  ssl := second.ssl.trans first.ssl
  inbuf := second.inbuf.trans first.inbuf
  writeLen := second.writeLen.trans first.writeLen
  writeWait := second.writeWait.trans first.writeWait
  tlsWait := second.tlsWait.trans first.tlsWait
  readWait := second.readWait.trans first.readWait
  acceptedAt := second.acceptedAt.trans first.acceptedAt

theorem SameIo.refl (cl : Client F) : SameIo cl cl := ⟨rfl, rfl, rfl, rfl, rfl, rfl, rfl, rfl, rfl⟩

theorem sameIo_assign (value : F) (cl : Client F) : SameIo cl (cl.assign value) := by
  unfold Client.assign
  split
  · exact ⟨rfl, rfl, rfl, rfl, rfl, rfl, rfl, rfl, rfl⟩
  · exact .refl cl

theorem sameIo_queueOutput (cl : Client F) (now : Int) (data : List UInt8) :
    SameIo cl { cl with out := (cl.out.queueOutput now data).1 } := by
  have waits : (cl.out.queueOutput now data).1.writeLen = cl.out.writeLen ∧
      (cl.out.queueOutput now data).1.writeWait = cl.out.writeWait := by
    unfold Queue.queueOutput
    split
    · exact ⟨rfl, rfl⟩
    · split <;> exact ⟨rfl, rfl⟩
  exact ⟨rfl, rfl, rfl, rfl, waits.1, waits.2, rfl, rfl, rfl⟩

theorem Work.sameIo {s s' : Place F} {events : List (Event F)} (work : Work p s events s') :
    SameIo s.2 s'.2 := by
  cases work with
  | queues data active => exact sameIo_queueOutput ..
  | assigns value asked => exact sameIo_assign ..
  | _ => exact ⟨rfl, rfl, rfl, rfl, rfl, rfl, rfl, rfl, rfl⟩

theorem sameIo_of_path {s s' : Place F} {events : List (Event F)}
    (path : Path (Work p) s events s') : SameIo s.2 s'.2 :=
  path.keeps (I := fun s' => SameIo s.2 s'.2) (fun _ _ _ work same => same.trans work.sameIo)
    (.refl s.2)

theorem Step.used {s s' : Place F} {events : List (Event F)} (step : Step p s events s') :
    s'.2.used = s.2.used := by
  cases step with
  | works work => exact work.sameIo.used
  | _ => rfl

/-- Work does not go back to the handshake. -/
theorem Work.open_ {s s' : Place F} {events : List (Event F)} (work : Work p s events s')
    (open_ : s.2.phase ≠ .tls) : s'.2.phase ≠ .tls := by
  cases work with
  | assigns value asked =>
      rename_i sh cl
      show (cl.assign value).phase ≠ .tls
      unfold Client.assign
      split <;> exact open_
  | upgrades created http => exact ClientPhase.noConfusion
  | closes open' => exact ClientPhase.noConfusion
  | _ => exact open_

theorem processClientBuffer_path {s : Place F} (open_ : s.2.phase ≠ .tls)
    (quiet : s.2.readWait = 0) (fits : s.2.inbuf.length ≤ inputBufSize) :
    Walks (Step p) (Stage.processClientBuffer p) s ∧
      (Stage.processClientBuffer p s.1 s.2).client.out.writeLen = s.2.out.writeLen ∧
      (Stage.processClientBuffer p s.1 s.2).client.phase ≠ .tls := by
  have turns : ∀ past s' buf s'' rest events, Stage.processTurn p s' buf = some (s'', rest, events) →
      Path (Work p) s past s' ∧ buf.length ≤ s.2.inbuf.length →
        Path (Work p) s (past ++ events) s'' ∧ rest.length ≤ s.2.inbuf.length := by
    rintro past s' buf s'' rest events turned ⟨path, short⟩
    obtain ⟨more, shorter⟩ := processTurn_path turned
    exact ⟨path.trans more, shorter.trans short⟩
  obtain ⟨path, short⟩ := drain_keeps
    (I := fun past s' rest => Path (Work p) s past s' ∧ rest.length ≤ s.2.inbuf.length)
    turns [] ⟨.nil, le_refl s.2.inbuf.length⟩
  have still := path.keeps (I := fun s' => s'.2.phase ≠ .tls) (fun _ _ _ work => work.open_) open_
  refine ⟨?_, (sameIo_of_path path).writeLen, still⟩
  have quiet' := (sameIo_of_path path).readWait.trans quiet
  have works : Path (Step p) s _ _ := path.mono (I := fun s => s.2.readWait = 0)
    (fun _ _ _ work quiet => work.sameIo.readWait.trans quiet)
    (fun _ _ _ quiet work => .works work (Or.inr quiet)) quiet
  exact works.then_ (.consumes _ (short.trans fits) still quiet')

theorem ne_tls_of_open {phase : ClientPhase} (open_ : phase = .http ∨ phase = .ws) :
    phase ≠ .tls := by
  rintro rfl
  rcases open_ with http | ws
  · cases http
  · cases ws

theorem ne_closing_of_open {phase : ClientPhase} (open_ : phase = .http ∨ phase = .ws) :
    phase ≠ .closing := by
  rintro rfl
  rcases open_ with http | ws
  · cases http
  · cases ws

theorem readLoop_path (reads : Nat) {s : Place F} (open_ : s.2.phase = .http ∨ s.2.phase = .ws)
    (writeFree : s.2.out.writeLen = 0) : Walks (Step p) (Stage.readLoop p reads) s := by
  induction reads generalizing s with
  | zero => exact .nil
  | succ reads ih =>
      obtain ⟨sh, cl⟩ := s
      have outside : ∀ {sh : Shared F} {cl : Client F},
          Step p (sh, cl) [] ({ sh with calls := sh.calls + 1 }, cl) :=
        .works (.outside _ (Nat.le_succ _)) (Or.inl rfl)
      unfold Walks Stage.readLoop
      dsimp only
      split
      · exact .single (.works .fails (Or.inl rfl))
      · rename_i room
        cases result : p.sslRead sh.calls (inputBufSize - cl.inbuf.length) with
        | wantRead =>
            exact .cons outside
              (.single (.readWants _ .wantRead open_ writeFree room (Or.inl ⟨rfl, rfl⟩)))
        | wantWrite =>
            exact .cons outside
              (.single (.readWants _ .wantWrite open_ writeFree room (Or.inr ⟨rfl, rfl⟩)))
        | failed => exact .cons outside (.single (.readFails open_ writeFree))
        | got chunk some_ short =>
            have pos := List.length_pos_iff.mpr some_
            have fits : cl.inbuf.length + chunk.length ≤ inputBufSize := by omega
            have read : Path (Step p) (sh, cl) [.sslRead (.got chunk)] _ :=
              .cons outside (.single (.reads chunk open_ writeFree fits))
            obtain ⟨process, writeLen, still⟩ := processClientBuffer_path (p := p)
              (s := ({ sh with calls := sh.calls + 1 },
                { cl with readWait := 0, inbuf := cl.inbuf ++ chunk }))
              (ne_tls_of_open open_) rfl
              (by rw [List.length_append]; exact fits)
            refine Walks.andThen (Walks.andThen read process) ?_
            unfold Walks
            dsimp only
            split
            · exact .single outside
            · rename_i goes
              rw [not_or] at goes
              refine .cons outside (ih ?_ (writeLen.trans writeFree))
              show (Stage.processClientBuffer p _ _).client.phase = .http ∨ _
              cases phase : (Stage.processClientBuffer p { sh with calls := sh.calls + 1 }
                  { cl with readWait := 0, inbuf := cl.inbuf ++ chunk }).client.phase with
              | tls => exact absurd phase still
              | http => exact Or.inl rfl
              | ws => exact Or.inr phase
              | closing => exact absurd phase goes.1

theorem read_path (events : UInt16) {s : Place F} (open_ : s.2.phase ≠ .tls) :
    Walks (Step p) (Stage.read p events) s := by
  unfold Walks Stage.read
  dsimp only
  have outside : Step p s [] ({ s.1 with calls := s.1.calls + 1 }, s.2) :=
    .works (.outside _ (Nat.le_succ _)) (Or.inl rfl)
  split
  · rename_i goes
    refine .cons outside (readLoop_path maxReads ?_ goes.1)
    cases phase : s.2.phase with
    | tls => exact absurd phase open_
    | http => exact Or.inl rfl
    | ws => exact Or.inr rfl
    | closing => exact absurd phase goes.2.1
  · exact .single outside

theorem write_path (events : UInt16) {s : Place F} (open_ : s.2.phase ≠ .tls) :
    Walks (Step p) (Stage.write p events) s ∧
      (Stage.write p events s.1 s.2).client.phase = s.2.phase := by
  unfold Walks Stage.write
  split
  · rename_i goes
    obtain ⟨sh, cl⟩ := s
    refine ⟨?_, rfl⟩
    exact .cons (.works (.outside (sh.calls + 1) (Nat.le_succ _)) (Or.inl rfl))
      (.then_ (.single (.flushes (p.sslWrite sh.calls) open_ goes.2.1))
        (.works (.outside (sh.calls + 2) (Nat.le_succ _)) (Or.inl rfl)))
  · exact ⟨.nil, rfl⟩

theorem transfer_path (events : UInt16) (s : Place F) :
    Walks (Step p) (Stage.transfer p events) s := by
  unfold Walks Stage.transfer
  split
  · rename_i goes
    obtain ⟨path, phase⟩ := write_path (p := p) events goes.2
    refine Walks.andThen path (read_path events ?_)
    rw [phase]
    exact goes.2
  · exact .nil

theorem handshake_path (events : UInt16) (s : Place F) :
    Walks (Step p) (Stage.handshake p events) s := by
  unfold Walks Stage.handshake
  split
  · rename_i goes
    obtain ⟨sh, cl⟩ := s
    have outside : Step p (sh, cl) [] ({ sh with calls := sh.calls + 1 }, cl) :=
      .works (.outside _ (Nat.le_succ _)) (Or.inl rfl)
    unfold Stage.accept
    dsimp only
    cases p.sslAccept sh.calls with
    | done => exact .cons outside (.single (.accepts goes.2.1))
    | wantRead => exact .cons outside (.single (.acceptWants _ .wantRead goes.2.1 (Or.inl rfl)))
    | wantWrite => exact .cons outside (.single (.acceptWants _ .wantWrite goes.2.1 (Or.inr rfl)))
    | failed => exact .cons outside (.single (.acceptFails goes.2.1))
  · exact .nil

theorem checkDeadlines_path (events : UInt16) (s : Place F) :
    Walks (Step p) (Stage.checkDeadlines p events) s := by
  unfold Walks Stage.checkDeadlines
  dsimp only
  have outside : Step p s [] ({ s.1 with calls := s.1.calls + 1 }, s.2) :=
    .works (.outside _ (Nat.le_succ _)) (Or.inl rfl)
  have checks : Path (Step p) s [.checked (p.clock s.1.calls)]
      ({ s.1 with calls := s.1.calls + 1 }, s.2) := .cons outside (.single (.checks _))
  split
  · exact checks.then_ (.works .fails (Or.inl rfl))
  · exact checks

/-- **Attending to a client** walks a path. -/
theorem attend_path (events : UInt16) (s : Place F) :
    Walks (Step p) (Stage.attend p events) s :=
  Walks.andThen (Walks.andThen (checkDeadlines_path events s) (handshake_path events _))
    (transfer_path events _)

/-- So does handing a device event to its controller. -/
theorem spnavEvent_path (ev : SbEvent) (s : Place F) :
    Walks (Still p) (Stage.spnavEvent p ev) s := by
  unfold Walks Stage.spnavEvent
  obtain ⟨sh, cl⟩ := s
  cases held : cl.ctrl with
  | none => exact .nil
  | some ctrl =>
      dsimp only
      split
      · have moves : Work p ({ sh with calls := sh.calls + 1 }, cl) _ _ :=
          .moves ctrl (p.envs sh.calls) ev held
        refine .cons ⟨.outside _ (Nat.le_succ _), rfl⟩ (.cons ⟨moves, rfl⟩ (performAll_path ?_ _ ?_))
        · exact fun act inside => tame_of_output (isOutput_clientSends _ _ act inside)
        · exact Or.inr (Option.some_ne_none _)
      · exact .nil

end Process

end SpnavBridge.Daemon
