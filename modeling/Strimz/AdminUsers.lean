import Strimz.Runs
import Strimz.Table

/-!
# Operators of the platform

The rows of `AdminUser` and every request that moves them (`admin.service.ts`): inviting an
operator, sending an invite again, accepting one, and a super admin's change of another's role
or status. The guard (`admin-auth.guard.ts`) reads the caller's row in a statement of its own.

A request is a task that waits between its statements, so other requests come in between. The
transaction of `acceptInvite` is one step: its update re-evaluates its condition on the row it
locks, and a transaction that fails leaves nothing. Only `acceptInvite` reads the clock once,
when it starts.
-/

namespace Strimz.AdminUsers

/-! ## Rows -/

inductive AdminRole where
  | super_admin
  | admin
  | read_only
deriving Repr, DecidableEq

inductive AdminUserStatus where
  | active
  | suspended
deriving Repr, DecidableEq

structure AdminRow where
  id : Nat
  privyUserId : Option String
  email : String
  role : AdminRole
  status : AdminUserStatus
  inviteTokenHash : Option String
  inviteExpiresAt : Option Nat
deriving Repr, DecidableEq

/-! ## Tokens -/

/-- The functions of the platform that the service calls. -/
structure Env where
  /-- `createHash('sha256').update(token, 'utf8').digest('hex')` -/
  sha256 : String → String
  toLowerCase : String → String

def ADMIN_INVITE_TTL_MS : Nat := 7 * 24 * 60 * 60 * 1000

def hashAdminInviteToken (env : Env) (token : String) : String := env.sha256 token

structure IssuedToken where
  token : String
  hash : String
  expiresAt : Nat
deriving Repr, DecidableEq

/-- `issueAdminInviteToken`, with the token that the random bytes spell. -/
def issueAdminInviteToken (env : Env) (token : String) (now : Nat) : IssuedToken where
  token := token
  hash := hashAdminInviteToken env token
  expiresAt := now + ADMIN_INVITE_TTL_MS

/-! ## Errors -/

inductive AdminError where
  | accessDenied
  | accountInactive (status : AdminUserStatus)
  | insufficientRole (role : AdminRole)
  | notFound
  | emailTaken
  | inviteAccepted
  | inviteInactive (status : AdminUserStatus)
  | inviteChanged
  | invalidInvite
  | alreadyAdmin
  | emailMismatch
  | ownRole
  | ownStatus
  | sameRole (role : AdminRole)
  | sameStatus (status : AdminUserStatus)
  | uniqueViolation (column : String)
  | internal
deriving Repr, DecidableEq

def AdminRole.text : AdminRole → String
  | .super_admin => "super_admin"
  | .admin => "admin"
  | .read_only => "read_only"

def AdminUserStatus.text : AdminUserStatus → String
  | .active => "active"
  | .suspended => "suspended"

def AdminError.code : AdminError → String
  | .accessDenied => "admin_access_denied"
  | .accountInactive _ => "admin_account_inactive"
  | .insufficientRole _ => "admin_insufficient_role"
  | .notFound => "not_found"
  | .emailTaken => "already_exists"
  | .inviteAccepted | .inviteInactive _ | .inviteChanged | .sameRole _ | .sameStatus _ =>
      "invalid_state"
  | .invalidInvite => "invite_invalid"
  | .alreadyAdmin => "already_admin"
  | .emailMismatch => "invite_email_mismatch"
  | .ownRole | .ownStatus => "cannot_modify_self"
  | .uniqueViolation _ => "P2002"
  | .internal => "internal_error"

def AdminError.message : AdminError → String
  | .accessDenied => "no admin profile for this account"
  | .accountInactive status => "admin account is " ++ status.text
  | .insufficientRole role => "requires role super_admin; you have " ++ role.text
  | .notFound => ""
  | .emailTaken => "email already admin"
  | .inviteAccepted => "invite already accepted"
  | .inviteInactive status =>
      "admin is " ++ status.text ++ "; reactivate before re-sending the invite"
  | .inviteChanged => "invite changed while re-sending; reload and try again"
  | .invalidInvite =>
      "this invite link is invalid, already used, or expired; ask a super admin to re-send it"
  | .alreadyAdmin => "this account is already a Strimz admin"
  | .emailMismatch => "sign in with the email address the invite was sent to"
  | .ownRole => "you can't change your own role"
  | .ownStatus => "you can't suspend yourself"
  | .sameRole role => "admin already " ++ role.text
  | .sameStatus status => "admin already " ++ status.text
  | .uniqueViolation column => "Unique constraint failed on the fields: (" ++ column ++ ")"
  | .internal => "Internal server error"

/-! ## The world -/

/-- What a super admin sets on another row. -/
inductive Setting where
  | role (role : AdminRole)
  | status (status : AdminUserStatus)
deriving Repr, DecidableEq

/-- A call of `acceptInvite`, with the clock it read when it started. -/
structure Accept where
  token : String
  privyUserId : String
  now : Nat
deriving Repr, DecidableEq

/-- A request, by the statement that it runs next. -/
inductive Task where
  /-- `setAdminRole`, `setAdminStatus`: the read of the row. -/
  | change (actorId adminId : Nat) (to_ : Setting)
  /-- Their update. -/
  | changing (actorId adminId : Nat) (to_ : Setting)
  /-- `inviteAdmin`: the lookup by email. -/
  | invite (email : String) (role : AdminRole)
  /-- Its insert. -/
  | inviting (email : String) (role : AdminRole)
  /-- `resendInvite`: the read of the row. -/
  | resend (adminId : Nat)
  /-- Its update. -/
  | resending (adminId : Nat)
  /-- `acceptInvite`: the lookup by token. -/
  | accept (call : Accept)
  /-- The lookup by account. -/
  | acceptInvited (call : Accept) (id : Nat) (email : String)
  /-- The account's email, from outside. -/
  | acceptUnlinked (call : Accept) (id : Nat) (email : String)
  /-- The transaction. -/
  | accepting (call : Accept) (id : Nat) (email : String)
deriving Repr, DecidableEq

/-- A token that was written to a row. -/
structure Issue where
  adminId : Nat
  token : String
  expiresAt : Nat
deriving Repr, DecidableEq

/-- A committed `acceptInvite`. -/
structure Link where
  adminId : Nat
  call : Accept
  email : String
deriving Repr, DecidableEq

structure World where
  now : Nat
  admins : List AdminRow
  tasks : List Task
  replies : List (Except AdminError Unit)
  /-- Tokens in the order in which they were written, the last one first. -/
  issues : List Issue
  /-- The emails that the calls of `acceptInvite` were answered. -/
  identified : List (Accept × String)
  /-- Acceptances in the order of their commits. -/
  links : List Link
deriving DecidableEq

namespace World

def admin? (w : World) (id : Nat) : Option AdminRow := Table.find AdminRow.id w.admins id

def byPrivy? (w : World) (privyUserId : String) : Option AdminRow :=
  w.admins.find? (·.privyUserId = some privyUserId)

def spawn (t : Task) (w : World) : World := { w with tasks := w.tasks ++ [t] }

def finish (k : Nat) (w : World) : World := { w with tasks := w.tasks.eraseIdx k }

def reply (r : Except AdminError Unit) (w : World) : World := { w with replies := w.replies ++ [r] }

def fail (e : AdminError) (w : World) : World := w.reply (.error e)

/-- An id that no row has. -/
def newId (w : World) : Nat := (w.admins.map (·.id)).foldr max 0 + 1

end World

/-! ## Requests -/

inductive Request where
  | setAdminRole (adminId : Nat) (role : AdminRole)
  | setAdminStatus (adminId : Nat) (status : AdminUserStatus)
  | removeAdmin (adminId : Nat)
  | inviteAdmin (email : String) (role : AdminRole)
  | resendInvite (adminId : Nat)
deriving Repr, DecidableEq

/-- `canActivate` under `@RequireAdminRoles('super_admin')`, for the account a session is of. -/
def canActivate (w : World) (privyUserId : String) : Except AdminError Nat :=
  match w.byPrivy? privyUserId with
  | none => .error .accessDenied
  | some admin =>
      if admin.status ≠ .active then .error (.accountInactive admin.status)
      else if admin.role ≠ .super_admin then .error (.insufficientRole admin.role)
      else .ok admin.id

/-- The first check of `setAdminRole` and `setAdminStatus`. -/
def setAdmin (adminId : Nat) (to_ : Setting) (actorId : Nat) (w : World) : World :=
  if adminId = actorId then
    w.fail (match to_ with | .role _ => .ownRole | .status _ => .ownStatus)
  else w.spawn (.change actorId adminId to_)

def handle (env : Env) (actorId : Nat) (w : World) : Request → World
  | .setAdminRole adminId role => setAdmin adminId (.role role) actorId w
  | .setAdminStatus adminId status => setAdmin adminId (.status status) actorId w
  | .removeAdmin adminId => setAdmin adminId (.status .suspended) actorId w
  | .inviteAdmin email role => w.spawn (.invite (env.toLowerCase email) role)
  | .resendInvite adminId => w.spawn (.resend adminId)

/-! ## Statements -/

def Setting.put (to_ : Setting) (r : AdminRow) : AdminRow :=
  match to_ with
  | .role next => { r with role := next }
  | .status next => { r with status := next }

/-- A row that has the setting already. -/
def Setting.unchanged (to_ : Setting) (r : AdminRow) : Option AdminError :=
  match to_ with
  | .role next => if r.role = next then some (.sameRole next) else none
  | .status next => if r.status = next then some (.sameStatus next) else none

/-- `adminUser.update({ where: { id }, data })`, which throws where no row has the id. -/
def updateAdmin (id : Nat) (f : AdminRow → AdminRow) (w : World) : World :=
  if w.admins.countP (·.id = id) = 0 then w.fail .internal
  else { w with admins := Table.updateWhere (·.id = id) f w.admins }.reply (.ok ())

def newAdmin (id : Nat) (email : String) (role : AdminRole) (invite : IssuedToken) : AdminRow where
  id := id
  privyUserId := none
  email := email
  role := role
  status := .active
  inviteTokenHash := some invite.hash
  inviteExpiresAt := some invite.expiresAt

def insertAdmin (email : String) (role : AdminRole) (invite : IssuedToken) (w : World) : World :=
  if w.admins.any (·.email = email) then w.fail (.uniqueViolation "email")
  else if w.admins.any (·.inviteTokenHash = some invite.hash) then
    w.fail (.uniqueViolation "inviteTokenHash")
  else
    { w with admins := w.admins ++ [newAdmin w.newId email role invite],
             issues := ⟨w.newId, invite.token, invite.expiresAt⟩ :: w.issues }.reply (.ok ())

/-- `where: { id, privyUserId: null, status: 'active' }` -/
def pending (id : Nat) (r : AdminRow) : Bool :=
  r.id = id ∧ r.privyUserId = none ∧ r.status = .active

def renew (invite : IssuedToken) (r : AdminRow) : AdminRow :=
  { r with inviteTokenHash := some invite.hash, inviteExpiresAt := some invite.expiresAt }

def renewInvite (adminId : Nat) (invite : IssuedToken) (w : World) : World :=
  if w.admins.countP (pending adminId) ≠ 1 then w.fail .inviteChanged
  else if w.admins.any (fun r => r.id ≠ adminId ∧ r.inviteTokenHash = some invite.hash) then
    w.fail (.uniqueViolation "inviteTokenHash")
  else
    { w with admins := Table.updateWhere (pending adminId) (renew invite) w.admins,
             issues := ⟨adminId, invite.token, invite.expiresAt⟩ :: w.issues }.reply (.ok ())

/-- The checks on the row that `acceptInvite` reads. -/
def openInvite (now : Nat) (r : AdminRow) : Bool :=
  r.privyUserId = none ∧ r.status = .active ∧ r.inviteExpiresAt.any (now < ·)

/-- The condition of its update. -/
def acceptable (env : Env) (call : Accept) (id : Nat) (email : String) (r : AdminRow) : Bool :=
  r.id = id ∧ r.email = email ∧ r.inviteTokenHash = some (hashAdminInviteToken env call.token) ∧
    r.privyUserId = none ∧ r.status = .active ∧ r.inviteExpiresAt.any (call.now < ·)

def link (call : Accept) (r : AdminRow) : AdminRow :=
  { r with privyUserId := some call.privyUserId, inviteTokenHash := none, inviteExpiresAt := none }

/-- The transaction of `acceptInvite`. -/
def commitAccept (env : Env) (call : Accept) (id : Nat) (email : String) (w : World) : World :=
  if w.admins.countP (acceptable env call id email) ≠ 1 then w.fail .invalidInvite
  else if w.admins.any (·.privyUserId = some call.privyUserId) then
    w.fail (.uniqueViolation "privyUserId")
  else
    { w with admins := Table.updateWhere (acceptable env call id email) (link call) w.admins,
             links := w.links ++ [Link.mk id call email] }.reply (.ok ())

/-! ## Steps -/

/-- What a statement is answered from outside. -/
inductive Answer where
  | done
  /-- The random bytes of a token. -/
  | random (token : String)
  /-- The account's primary email, if it has one. -/
  | user (primaryEmail : Option String)
  /-- The statement or the call fails, the transaction rolls back, or the process dies. -/
  | fails
deriving Repr, DecidableEq

/-- The statement that a task runs next. -/
def runTask (env : Env) (w : World) : Task → Answer → World
  | _, .fails => w.fail .internal
  | .change actorId adminId to_, _ =>
      match w.admin? adminId with
      | none => w.fail .notFound
      | some previous =>
          match to_.unchanged previous with
          | some e => w.fail e
          | none => w.spawn (.changing actorId adminId to_)
  | .changing _ adminId to_, _ => updateAdmin adminId to_.put w
  | .invite email role, _ =>
      if w.admins.any (·.email = email) then w.fail .emailTaken
      else w.spawn (.inviting email role)
  | .inviting email role, .random token =>
      insertAdmin email role (issueAdminInviteToken env token w.now) w
  | .resend adminId, _ =>
      match w.admin? adminId with
      | none => w.fail .notFound
      | some target =>
          if target.privyUserId ≠ none then w.fail .inviteAccepted
          else if target.status ≠ .active then w.fail (.inviteInactive target.status)
          else w.spawn (.resending adminId)
  | .resending adminId, .random token =>
      renewInvite adminId (issueAdminInviteToken env token w.now) w
  | .accept call, _ =>
      match w.admins.find? (·.inviteTokenHash = some (hashAdminInviteToken env call.token)) with
      | none => w.fail .invalidInvite
      | some invite =>
          if openInvite call.now invite = false then w.fail .invalidInvite
          else w.spawn (.acceptInvited call invite.id invite.email)
  | .acceptInvited call id email, _ =>
      if (w.byPrivy? call.privyUserId).isSome then w.fail .alreadyAdmin
      else w.spawn (.acceptUnlinked call id email)
  | .acceptUnlinked call id email, .user primaryEmail =>
      let w' := { w with identified := (primaryEmail.map fun e => (call, e)).toList ++ w.identified }
      if primaryEmail ≠ some email then w'.fail .emailMismatch
      else w'.spawn (.accepting call id email)
  | .accepting call id email, _ => commitAccept env call id email w
  | .inviting _ _, _ | .resending _, _ | .acceptUnlinked _ _ _, _ => w.fail .internal

inductive Label where
  /-- A request to the admin API from a session of the account. -/
  | request (privyUserId : String) (r : Request)
  /-- A call of `acceptInvite` from a session of the account. -/
  | accept (token privyUserId : String)
  /-- The `k`-th task runs its next statement. -/
  | run (k : Nat) (a : Answer)
  | elapse (ms : Nat)
deriving Repr, DecidableEq

/-- 32 random bytes do not come twice. -/
def Answer.repeats (w : World) : Answer → Bool
  | .random token => w.issues.any (·.token = token)
  | _ => false

def step (env : Env) (w : World) : Label → World
  | .request privyUserId r =>
      match canActivate w privyUserId with
      | .error e => w.fail e
      | .ok actorId => handle env actorId w r
  | .accept token privyUserId => w.spawn (.accept ⟨token, privyUserId, w.now⟩)
  | .run k a =>
      match w.tasks[k]? with
      | none => w
      | some t => if a.repeats w then w else runTask env (w.finish k) t a
  | .elapse ms => { w with now := w.now + ms }

/-- Before any request: ids and accounts that tell rows apart, and no invite out. -/
structure World.Launched (w : World) : Prop where
  ids : (w.admins.map (·.id)).Nodup
  accounts : ∀ r ∈ w.admins, ∀ r' ∈ w.admins, r.privyUserId ≠ none →
    r.privyUserId = r'.privyUserId → r.id = r'.id
  invites : ∀ r ∈ w.admins, r.inviteTokenHash = none
  tasks : w.tasks = []
  issues : w.issues = []
  links : w.links = []

end Strimz.AdminUsers
