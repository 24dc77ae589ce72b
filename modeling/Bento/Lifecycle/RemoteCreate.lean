import Bento.Lifecycle.Actions

/-! A create whose instance another machine builds. The request and its reply go over a link
that may lose either, the controller waits for a limited time, and the runner works at its
own pace. -/

namespace Bento.Lifecycle
open Store

inductive Link where
  | idle
  | sent (spec : ProvisionSpec)
  | lost
  | replied (result : Except Cause PowerState)
  | abandoned (spec : ProvisionSpec)
  | closed

def Link.settled : Link → Bool
  | .idle | .closed => true
  | .sent _ | .lost | .replied _ | .abandoned _ => false

structure Creation where
  world : World
  minted : Option String
  link : Link
  program : ManagerProgram (Except Error Instance)

inductive CreateEvent where
  | call (moment : Moment)
  | send
  | lose
  /-- The runner serves the request. A fault of the moment is its fence: the request is
  refused before the work, or the work is done and could not be recorded. -/
  | work (moment : Moment)
  | reply
  | giveUp (cause : Cause)
  /-- The runner drops a request with its connection, and the files built so far stay. -/
  | cut (seeded : Bool)
  | others (world : World)

namespace Creation

def begin (manager : Manager) (mac : String → String) (request : Manager.NewRequest) (world : World) : Creation :=
  ⟨world, none, .idle, (manager.create mac request).run⟩

variable (creation : Creation)

def answered (result : Except Cause PowerState) (link : Link) : Option Creation :=
  match creation.program with
  | .request (.provision _) next => some { creation with link, program := next result }
  | _ => none

def step (manager : Manager) : CreateEvent → Option Creation
  | .call moment =>
    match creation.program with
    | .pure _ | .request (.provision _) _ => none
    | .request call next =>
      let served := call.serve manager moment creation.world
      some { creation with
        world := served.2
        minted := if call = .mint then some moment.uuid else creation.minted
        program := next served.1 }
  | .send =>
    match creation.link, creation.program with
    | .idle, .request (.provision spec) _ =>
      if spec.hostId = manager.hostId then none else some { creation with link := .sent spec }
    | _, _ => none
  | .lose =>
    match creation.link with
    | .sent _ => some { creation with link := .lost }
    | _ => none
  | .work moment =>
    match creation.link with
    | .sent spec =>
      let served := (ManagerCall.provision spec).serve manager moment creation.world
      some { creation with world := served.2, link := .replied served.1 }
    | .abandoned spec =>
      some { creation with world := ((ManagerCall.provision spec).serve manager moment creation.world).2, link := .closed }
    | _ => none
  | .reply =>
    match creation.link with
    | .replied result => creation.answered result .closed
    | _ => none
  | .giveUp cause =>
    match creation.link with
    | .sent spec => creation.answered (.error cause) (.abandoned spec)
    | .lost | .replied _ => creation.answered (.error cause) .closed
    | _ => none
  | .cut seeded =>
    match creation.link with
    | .abandoned spec =>
      let machine := Machine.withFiles (creation.world.machines spec.hostId) spec seeded
      some { creation with world := creation.world.setMachine spec.hostId machine, link := .closed }
    | _ => none
  | .others world => some { creation with world }

end Creation

end Bento.Lifecycle
