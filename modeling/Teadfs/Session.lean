/-
# Teadfs.Session — which client a request goes to

The session with the client is two globals, set over two channels: opening and closing
the device sets `connect`, HELLO and CLOSE over netlink set `pid`. A request is sent when
`connect` is set, to `pid`, unless `pid` itself is asking. Nothing sets the one back with
the other: a device opened again has the pid of the client before until the new one says
HELLO, and after CLOSE the device is as open as it was.

`announced` is the history the two should agree with. It does agree with `pid` wherever
there is one (`announced_is_pid`); what is left is whether a request comes in between.
-/
import Teadfs.Client
import Teadfs.Lib.Simulation

namespace Teadfs

set_option autoImplicit false

open Protocol Relation

def ebusy : Int := -16

/-- `teadfs_miscdev_open`: one client at a time. -/
def teadfsMiscdevOpen (glob : GlobalParam) : Int × GlobalParam :=
  if glob.connect then (ebusy, glob) else (0, { glob with connect := true })

/-- `teadfs_miscdev_release`. -/
def teadfsMiscdevRelease (glob : GlobalParam) : GlobalParam := { glob with connect := false }

/-- A packet a user process sends on its own account. -/
inductive UserRequest where
  | hello (pid : Nat)
  | close
  | other

/-- `teadfs_user_request_kernel`, as far as it is remembered. -/
def teadfsUserRequestKernel : UserRequest → GlobalParam → GlobalParam
  | .hello pid, glob => { glob with pid := pid }
  | .close, glob => { glob with pid := 0 }
  | .other, glob => glob

/-- A call of a request function: who calls, and what the packet would hold. -/
structure Upcall where
  proc : Nat
  type : MsgType
  data : PacketData
  payload : List UInt8

/-- The pid `teadfs_send_to_user` sends the request to, if it comes to that: the packet
is built, and `teadfs_request_send` has its context. -/
def Upcall.destination (env : Env) (upcall : Upcall) (w : World) : Option Nat :=
  match (exchange env upcall.proc upcall.type upcall.data upcall.payload w).packet with
  | none => none
  | some packet =>
      match env.send w.chan.clock packet with
      | .noCtx => none
      | _ => some w.chan.glob.pid

/-- The module and what it should know about its client. -/
structure Session where
  world : World
  /-- History: the pid of the last HELLO since the device was opened, unless CLOSE or the
  device's close came after it. -/
  announced : Option Nat

inductive SessionStep where
  | deviceOpen
  | deviceRelease
  | user (request : UserRequest)
  | request (upcall : Upcall)

namespace Session

def setGlob (w : World) (glob : GlobalParam) : World := { w with chan.glob := glob }

def next (env : Env) (s : Session) : SessionStep → Session
  | .deviceOpen =>
      ⟨setGlob s.world (teadfsMiscdevOpen s.world.chan.glob).2,
        if s.world.chan.glob.connect then s.announced else none⟩
  | .deviceRelease => ⟨setGlob s.world (teadfsMiscdevRelease s.world.chan.glob), none⟩
  | .user request =>
      ⟨setGlob s.world (teadfsUserRequestKernel request s.world.chan.glob),
        match request with
        | .hello pid => some pid
        | .close => none
        | .other => s.announced⟩
  | .request r =>
      ⟨(exchange env r.proc r.type r.data r.payload s.world).world, s.announced⟩

/-- The module as it is loaded. -/
def start (inode : InodeInfo) : Session := ⟨⟨inode, ⟨⟨1, 0, false⟩, 0, []⟩⟩, none⟩

/-- If the request is sent, it goes to the announced client, and that is the process
whose own accesses are exempt. -/
def Current (env : Env) (s : Session) (r : Upcall) : Prop :=
  ∀ pid, r.destination env s.world = some pid →
    s.announced = some pid ∧ s.announced = some s.world.chan.glob.pid

/-- A request that would be sent is made only while a client is announced. -/
def Expected (env : Env) (s : Session) (r : Upcall) : Prop :=
  s.world.chan.glob.connect = true → r.proc ≠ s.world.chan.glob.pid →
    env.packetAlloc s.world.chan.clock = true →
    env.send s.world.chan.clock (requestPacket r.proc r.type r.data r.payload s.world) ≠ .noCtx →
    s.announced ≠ none

variable {env : Env} {s : Session}

theorem destination_eq_some_iff {r : Upcall} {w : World} {pid : Nat} :
    r.destination env w = some pid ↔
      (w.chan.glob.connect = true ∧ r.proc ≠ w.chan.glob.pid ∧
        env.packetAlloc w.chan.clock = true) ∧
      env.send w.chan.clock (requestPacket r.proc r.type r.data r.payload w) ≠ .noCtx ∧
      w.chan.glob.pid = pid := by
  unfold Upcall.destination
  rw [exchange_packet_eq]
  by_cases built : w.chan.glob.connect = true ∧ r.proc ≠ w.chan.glob.pid ∧
      env.packetAlloc w.chan.clock = true
  · rw [if_pos built]
    cases answer : env.send w.chan.clock (requestPacket r.proc r.type r.data r.payload w) with
    | noCtx => simp [answer]
    | noReply => simp [answer, built]
    | reply reply => simp [answer, built]
  · simp [built]

/-- The announced client is the one the module knows. -/
def Agrees (s : Session) : Prop := ∀ pid, s.announced = some pid → s.world.chan.glob.pid = pid

theorem next_agrees (agrees : s.Agrees) (step : SessionStep) : (s.next env step).Agrees := by
  intro pid announced
  cases step with
  | deviceOpen =>
      simp only [next] at announced ⊢
      split at announced
      · rename_i busy
        simpa [setGlob, teadfsMiscdevOpen, busy] using agrees pid announced
      · cases announced
  | deviceRelease => cases announced
  | user request =>
      cases request with
      | hello pid' =>
          cases announced
          rfl
      | close => cases announced
      | other => exact agrees pid announced
  | request r =>
      have same := (exchange_steady env r.proc r.type r.data r.payload s.world).2.1
      exact same.trans (agrees pid announced)

/-- In every run the announced client, where there is one, is the one the module knows. -/
theorem announced_is_pid {inode : InodeInfo}
    (run : ReflTransGen (fun s t => ∃ step, t = s.next env step) (start inode) s) : s.Agrees := by
  refine Simulation.invariant (P := Agrees) ?_ run nofun
  rintro s _ ⟨step, rfl⟩ agrees
  exact next_agrees agrees step

/-- **A request goes to the current client exactly where one is announced.** In every
run of device opens and closes, HELLOs, CLOSEs and requests, and for every request that
is made next: if it is sent, it is sent to the pid of the last HELLO since the device was
opened, with no CLOSE since, if and only if there is such a HELLO whenever it is sent. -/
theorem request_current_iff {inode : InodeInfo}
    (run : ReflTransGen (fun s t => ∃ step, t = s.next env step) (start inode) s) (r : Upcall) :
    s.Current env r ↔ s.Expected env r := by
  have agrees := announced_is_pid run
  constructor
  · intro current connect other packet ctx none
    have sent : r.destination env s.world = some s.world.chan.glob.pid :=
      destination_eq_some_iff.mpr ⟨⟨connect, other, packet⟩, ctx, rfl⟩
    obtain ⟨announced, -⟩ := current _ sent
    rw [none] at announced
    cases announced
  · intro expected pid sent
    obtain ⟨⟨connect, other, packet⟩, ctx, rfl⟩ := destination_eq_some_iff.mp sent
    obtain ⟨pid, announced⟩ := Option.ne_none_iff_exists'.mp (expected connect other packet ctx)
    have same := agrees pid announced
    rw [announced, same]
    exact ⟨rfl, rfl⟩

end Session

/-- An open request of process 7. -/
def exampleUpcall : Upcall := ⟨7, .open, .open 0 ⟨2, 56⟩, [0x2f, 0x74]⟩

/-- A client opens the device and says HELLO. -/
def greeted : List SessionStep := [.deviceOpen, .user (.hello 42)]

/-- It goes, and the device is opened again. -/
def reopened : List SessionStep := greeted ++ [.deviceRelease, .deviceOpen]

theorem session_run (env : Env) (inode : InodeInfo) (steps : List SessionStep) :
    ReflTransGen (fun s t => ∃ step, t = s.next env step) (Session.start inode)
      (steps.foldl (Session.next env) (Session.start inode)) := by
  generalize Session.start inode = s
  induction steps generalizing s with
  | nil => exact .refl
  | cons step steps ih => exact .head ⟨step, rfl⟩ (ih _)

theorem greeted_request_current :
    exampleUpcall.destination (clientEnv (xorCb .decrypt))
        (greeted.foldl (Session.next (clientEnv (xorCb .decrypt)))
          (Session.start (freshWorld []).inode)).world = some 42 ∧
      (greeted.foldl (Session.next (clientEnv (xorCb .decrypt)))
        (Session.start (freshWorld []).inode)).Current (clientEnv (xorCb .decrypt))
        exampleUpcall :=
  ⟨rfl, (Session.request_current_iff (session_run _ _ greeted) exampleUpcall).mpr fun _ _ _ _ =>
    nofun⟩

/-- The client that went is sent a request. -/
theorem reopened_request_to_old_client :
    ¬ ∀ (env : Env) (inode : InodeInfo) (s : Session),
      ReflTransGen (fun s t => ∃ step, t = s.next env step) (Session.start inode) s →
      ∀ r, s.Current env r := by
  intro current
  have sent := current _ _ _ (session_run (clientEnv (xorCb .decrypt)) (freshWorld []).inode reopened)
    exampleUpcall 42 rfl
  cases sent.1

end Teadfs
