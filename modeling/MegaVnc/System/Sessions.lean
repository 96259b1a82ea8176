import MegaVnc.System.Usernames

/-! # Sessions

A login copies the columns of a member into the principal of a session, and the
requests of the session act for this copy. Nothing brings it up to date: it
stays as it is when the member gets another password or is deleted, and ends
with a logout or with a start of the application.
-/

namespace MegaVnc

open Relational Fallible Transition

namespace SecurityUserDetailsService

/-- The principal of a login is built from the row with the username. -/
def loadUserByUsername (db : Database) (username : String) : Except Exception User := do
  let member ← orElseThrow (db.findByUsername (some username))
    (UserService.usernameNotFound (some username))
  pure (.createUser member)

end SecurityUserDetailsService

/-- A session with its principal. The id of the member it was logged in as is
kept to speak of it; the server has the principal alone. -/
structure HttpSession where
  user : User
  member : Long
deriving DecidableEq

/-- The session a login as the member opens. -/
def HttpSession.login (member : Member) : HttpSession where
  user := .createUser member
  member := member.id

/-- The requests that are handled for the principal of their session. -/
inductive SessionRequest where
  | showRemotePcs (selectedGroupName : Option String)
  | showViewer (id : Long)
  | deleteRemotePc (id : Long)
  | uploadFile (now : Date) (file : MultipartFile) (repeaterId : Option Long)
      (fault : Option UploadFault)
  | processChangePassword (changePassword : ChangePasswordDto)
deriving DecidableEq

/-- The operation a request performs for the principal of its session. -/
def SessionRequest.operation (user : User) : SessionRequest → Operation
  | .showRemotePcs selectedGroupName => .showRemotePcs user selectedGroupName
  | .showViewer id => .showViewer user id
  | .deleteRemotePc id => .deleteRemotePc user id
  | .uploadFile now file repeaterId fault => .uploadFile now file repeaterId user fault
  | .processChangePassword changePassword => .processChangePassword changePassword user

namespace Operation

/-- Handled for the principal of a session. -/
def hasPrincipal : Operation → Bool
  | .showRemotePcs _ _ | .showViewer _ _ | .deleteRemotePc _ _ | .uploadFile _ _ _ _ _
  | .processChangePassword _ _ => true
  | _ => false

/-- The first start fills the tables and is no request. -/
def isStart : Operation → Bool
  | .dataLoader _ => true
  | _ => false

end Operation

theorem SessionRequest.operation_hasPrincipal (request : SessionRequest) (user : User) :
    (request.operation user).hasPrincipal = true := by
  cases request <;> rfl

/-- The application with its open sessions. -/
structure Portal where
  world : World
  sessions : List HttpSession

/-- A login with a password, or with a cookie that is signed with the encoded
password; a logout; a request in a session; or any other operation. -/
inductive PortalAction where
  | login (username password : String)
  | rememberMe (username signed : String)
  | logout (number : Nat)
  | request (number : Nat) (request : SessionRequest)
  | operate (operation : Operation) (plain : operation.hasPrincipal = false)

namespace Portal

/-- A session is opened for a principal that is found and admitted. -/
def authenticate (portal : Portal) (username : String) (admitted : User → Bool) : Portal :=
  match SecurityUserDetailsService.loadUserByUsername portal.world.db username,
      portal.world.db.findByUsername (some username) with
  | .ok user, some member =>
      if admitted user then
        { portal with sessions := portal.sessions ++ [{ user := user, member := member.id }] }
      else portal
  | _, _ => portal

/-- One login, logout, request or other operation. -/
def step (environment : Environment) (portal : Portal) : PortalAction → Portal
  | .login username password =>
      portal.authenticate username fun user => environment.matchesPassword password user.password
  | .rememberMe username signed =>
      portal.authenticate username fun user => user.password = signed
  | .logout number => { portal with sessions := portal.sessions.eraseIdx number }
  | .request number request =>
      match portal.sessions[number]? with
      | some session =>
          { portal with
            world := Application.step environment portal.world (request.operation session.user) }
      | none => portal
  | .operate operation _ =>
      { world := Application.step environment portal.world operation
        sessions := if operation.isStart then [] else portal.sessions }

/-- The first start. -/
def start (environment : Environment) : Portal where
  world := Application.initial environment
  sessions := []

/-- The states of the portal that runs lead to. -/
def Reachable (environment : Environment) (portal : Portal) : Prop :=
  Transition.Reachable (step environment) (start environment) portal

variable {environment : Environment} {portal : Portal} {action : PortalAction}

/-- A login finds the stored member it copies. -/
theorem authenticate_cases (portal : Portal) (username : String) (admitted : User → Bool) :
    portal.authenticate username admitted = portal ∨
      ∃ member ∈ portal.world.db.member.rows,
        portal.authenticate username admitted =
          { portal with sessions := portal.sessions ++ [.login member] } := by
  unfold authenticate SecurityUserDetailsService.loadUserByUsername
  cases found : portal.world.db.findByUsername (some username) with
  | none => exact Or.inl rfl
  | some member =>
      by_cases passes : admitted (.createUser member) = true
      · refine Or.inr ⟨member, List.mem_of_find?_eq_some found, ?_⟩
        simp only [orElseThrow, ok_bind]
        exact ite_cond_eq_true _ _ (eq_true passes)
      · refine Or.inl ?_
        simp only [orElseThrow, ok_bind]
        exact ite_cond_eq_false _ _ (eq_false passes)

/-- A request of a session is the operation for its principal. -/
theorem step_request {number : Nat} {request : SessionRequest} {session : HttpSession}
    (here : portal.sessions[number]? = some session) :
    step environment portal (.request number request) =
      { portal with
        world := Application.step environment portal.world (request.operation session.user) } := by
  simp only [step, here]

theorem step_request_none {number : Nat} {request : SessionRequest}
    (missing : portal.sessions[number]? = none) :
    step environment portal (.request number request) = portal := by
  simp only [step, missing]

/-- What an action does: a login opens a session, and all others change the
world by at most one operation and open none. -/
theorem step_cases (environment : Environment) (portal : Portal) (action : PortalAction) :
    (∃ member ∈ portal.world.db.member.rows, step environment portal action =
        { portal with sessions := portal.sessions ++ [.login member] }) ∨
      (step environment portal action).sessions ⊆ portal.sessions ∧
        ((step environment portal action).world = portal.world ∨
          ∃ operation,
            (operation.hasPrincipal = true ∨ ∃ plain, action = .operate operation plain) ∧
            (step environment portal action).world =
              Application.step environment portal.world operation) := by
  have opened (username : String) (admitted : User → Bool)
      (logsIn : step environment portal action = portal.authenticate username admitted) :
      (∃ member ∈ portal.world.db.member.rows, step environment portal action =
          { portal with sessions := portal.sessions ++ [.login member] }) ∨
        (step environment portal action).sessions ⊆ portal.sessions ∧
          ((step environment portal action).world = portal.world ∨
            ∃ operation,
              (operation.hasPrincipal = true ∨ ∃ plain, action = .operate operation plain) ∧
              (step environment portal action).world =
                Application.step environment portal.world operation) := by
    rw [logsIn]
    rcases portal.authenticate_cases username admitted with same | member
    · rw [same]
      exact Or.inr ⟨List.Subset.refl _, Or.inl rfl⟩
    · exact Or.inl member
  cases action with
  | login username password => exact opened username _ rfl
  | rememberMe username signed => exact opened username _ rfl
  | logout number => exact Or.inr ⟨List.eraseIdx_subset, Or.inl rfl⟩
  | request number request =>
      cases here : portal.sessions[number]? with
      | none =>
          rw [step_request_none here]
          exact Or.inr ⟨List.Subset.refl _, Or.inl rfl⟩
      | some session =>
          rw [step_request here]
          exact Or.inr ⟨List.Subset.refl _, Or.inr
            ⟨_, Or.inl (request.operation_hasPrincipal session.user), rfl⟩⟩
  | operate operation plain =>
      refine Or.inr ⟨?_, Or.inr ⟨operation, Or.inr ⟨plain, rfl⟩, rfl⟩⟩
      change (if operation.isStart then [] else portal.sessions) ⊆ portal.sessions
      split
      · exact List.nil_subset _
      · exact List.Subset.refl _

/-- The world behind the sessions is one the application reaches. -/
theorem Reachable.world (reached : Reachable environment portal) :
    Application.Reachable environment portal.world := by
  have kept (portal : Portal) (action : PortalAction)
      (before : Application.Reachable environment portal.world) :
      Application.Reachable environment (step environment portal action).world := by
    rcases step_cases environment portal action with
      ⟨member, -, opened⟩ | ⟨-, same | ⟨operation, -, performed⟩⟩
    · rw [opened]
      exact before
    · rw [same]
      exact before
    · rw [performed]
      exact before.run [operation]
  exact Transition.Reachable.invariant (fun portal : Portal =>
    Application.Reachable environment portal.world) reached kept (Transition.Reachable.refl _)

/-- An operation neither gives an id out again nor renames a member. -/
theorem step_ids {world : World} (reached : Application.Reachable environment world)
    (operation : Operation) :
    world.db.member.nextKey ≤ (Application.step environment world operation).db.member.nextKey ∧
      ∀ member ∈ (Application.step environment world operation).db.member.rows,
        (∃ old ∈ world.db.member.rows, old.id = member.id ∧ old.username = member.username) ∨
          member.id = world.db.member.nextKey := by
  have intact := reached.intact
  obtain ⟨basePc, basePcIn, -, numbered, -⟩ := reached.exists_basePc
  refine ⟨member_nextKey_le_step intact.baseGroup intact.alone.named ⟨basePc, basePcIn, numbered⟩,
    fun member present => ?_⟩
  rcases (step_directoryEffect environment world operation).old_member intact.alone.named
    present with ⟨old, oldIn, sameId, sameName, -⟩ | new
  · exact Or.inl ⟨old, oldIn, sameId, sameName⟩
  · exact Or.inr new

end Portal

end MegaVnc
