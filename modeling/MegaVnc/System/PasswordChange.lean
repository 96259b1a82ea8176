import MegaVnc.System.Sessions

/-! # The current password of a password change

The submitted password is checked against the copy the session holds, and the
new one is stored for the member that is found by its username. The check is
right as long as the copy accepts what the stored password accepts.
-/

namespace MegaVnc

open Relational Fallible Transition
open Application (perform transact)

/-- The request gives the current password, checked against an encoded one, and
a confirmed new password for a stored member. -/
structure Grants (environment : Environment) (db : Database) (user : User)
    (changePassword : ChangePasswordDto) (encoded : String) (member : Member)
    (newPassword : String) : Prop where
  found : db.findByUsername user.username = some member
  current : ∃ password, changePassword.password = some password ∧
    environment.matchesPassword password encoded = true
  given : changePassword.newPassword = some newPassword
  confirmed : changePassword.newPasswordConfirm = some newPassword

/-- The new password is stored exactly when the current one is the member's
stored password, and otherwise no password changes. -/
structure ChangesRightly (environment : Environment) (world : World)
    (changePassword : ChangePasswordDto) (user : User) : Prop where
  stores : ∀ member newPassword,
    Grants environment world.db user changePassword member.password member newPassword →
      (perform environment world (.processChangePassword changePassword user)).1 =
          .ok (.view "redirect:/login") ∧
        (Application.step environment world
          (.processChangePassword changePassword user)).db.member.rows =
          Table.replace world.db.member.rows
            (member.changePassword environment.encodePassword newPassword)
  keeps : (∀ member newPassword,
      ¬ Grants environment world.db user changePassword member.password member newPassword) →
    (perform environment world (.processChangePassword changePassword user)).1 ≠
        .ok (.view "redirect:/login") ∧
      (Application.step environment world
        (.processChangePassword changePassword user)).db.member.rows = world.db.member.rows

/-- Where the new password is confirmed, the copy of the session accepts the
submitted password if and only if the stored one does. -/
def UpToDate (environment : Environment) (db : Database) (changePassword : ChangePasswordDto)
    (user : User) : Prop :=
  ∀ member password newPassword, db.findByUsername user.username = some member →
    changePassword.password = some password → changePassword.newPassword = some newPassword →
    changePassword.newPasswordConfirm = some newPassword →
      environment.matchesPassword password user.password =
        environment.matchesPassword password member.password

variable {environment : Environment} {world : World} {user : User} {member : Member}
  {changePassword : ChangePasswordDto} {newPassword : String}

/-! ### What the code does -/

/-- A stored member can be given any password: an encoded one always fits. -/
theorem updateMember_changePassword {db : Database} (present : member ∈ db.member.rows) :
    ∃ after, db.updateMember (member.changePassword environment.encodePassword newPassword) =
        .ok { db with member := after } ∧
      after.rows = Table.replace db.member.rows
        (member.changePassword environment.encodePassword newPassword) := by
  obtain ⟨_, username, -, nameFits, same⟩ :=
    fit_member_eq_some.mp (db.member.rows_fit member present)
  have kept : username = member.username := (congrArg Member.username same).symm
  have fits : fit (member.changePassword environment.encodePassword newPassword) =
      some (member.changePassword environment.encodePassword newPassword) :=
    fit_member_eq_some.mpr
      ⟨_, _, environment.encodePassword_fits newPassword, kept ▸ nameFits, rfl⟩
  obtain ⟨after, updated⟩ := Table.update_isSome fits present rfl rfl
  obtain ⟨row, keeps, rows, -⟩ := Table.update_eq_some updated
  cases fits.symm.trans keeps
  exact ⟨after, Database.store_eq_ok.mpr ⟨after, updated, rfl⟩, rows⟩

/-- The code grants the change by the copy of the session. -/
theorem perform_stored
    (grants : Grants environment world.db user changePassword user.password member newPassword) :
    ∃ after, perform environment world (.processChangePassword changePassword user) =
        (.ok (.view "redirect:/login"), world.withDb { world.db with member := after }) ∧
      after.rows = Table.replace world.db.member.rows
        (member.changePassword environment.encodePassword newPassword) := by
  obtain ⟨found, ⟨password, submitted, accepted⟩, given, confirmed⟩ := grants
  obtain ⟨after, updated, rows⟩ := @updateMember_changePassword environment member newPassword
    world.db (List.mem_of_find?_eq_some found)
  refine ⟨after, ?_, rows⟩
  simp only [perform, ChangePasswordController.processChangePassword, submitted, given, confirmed,
    accepted, orElseThrow, ok_bind, and_self, ↓reduceIte, UserService.changePassword, found,
    updated]
  rfl

/-- Without that, the page is shown again or the request fails. -/
theorem perform_kept (refused : ∀ member newPassword,
      ¬ Grants environment world.db user changePassword user.password member newPassword) :
    (perform environment world (.processChangePassword changePassword user)).1 ≠
        .ok (.view "redirect:/login") ∧
      (perform environment world (.processChangePassword changePassword user)).2.db =
        world.db := by
  change (transact world _).1 ≠ _ ∧ (transact world _).2.db = world.db
  rcases Application.transact_cases world _ with
    ⟨exception, -, failed⟩ | ⟨reply, db, ok, committed⟩
  · rw [failed]
    refine ⟨fun same => ?_, rfl⟩
    cases same
  · rw [committed]
    obtain ⟨view, changed, rfl⟩ := (Application.answered_eq_ok .view).mp ok
    simp only [ChangePasswordController.processChangePassword, bind_eq_ok,
      orElseThrow_eq_ok] at changed
    obtain ⟨password, submitted, newPassword, given, decided⟩ := changed
    split at decided
    · next accepted =>
        simp only [UserService.changePassword, bind_eq_ok, orElseThrow_eq_ok] at decided
        obtain ⟨_, ⟨member, found, -⟩, -⟩ := decided
        exact (refused member newPassword
          ⟨found, ⟨password, submitted, accepted.1⟩, given, accepted.2.symm⟩).elim
    · cases pure_eq_ok.mp decided
      have other : Reply.view "auth/change-password" ≠ .view "redirect:/login" := by decide
      exact ⟨fun same => other (Except.ok.inj same), rfl⟩

/-! ### The check -/

/-- A change is made rightly if and only if the copy of the session is up to date
for the submitted password. -/
theorem changesRightly_iff :
    ChangesRightly environment world changePassword user ↔
      UpToDate environment world.db changePassword user := by
  constructor
  · intro rightly member password newPassword found submitted given confirmed
    apply Bool.eq_iff_iff.mpr
    constructor
    · intro accepted
      by_contra wrong
      obtain ⟨after, stored, -⟩ :=
        perform_stored ⟨found, ⟨password, submitted, accepted⟩, given, confirmed⟩
      refine (rightly.keeps fun other _ grants => wrong ?_).1 (congrArg Prod.fst stored)
      obtain ⟨found', ⟨_, submitted', accepted'⟩, -, -⟩ := grants
      cases found.symm.trans found'
      cases submitted.symm.trans submitted'
      exact accepted'
    · intro accepted
      by_contra wrong
      have stored := rightly.stores member newPassword
        ⟨found, ⟨password, submitted, accepted⟩, given, confirmed⟩
      refine (perform_kept fun other _ grants => wrong ?_).1 stored.1
      obtain ⟨-, ⟨_, submitted', accepted'⟩, -, -⟩ := grants
      cases submitted.symm.trans submitted'
      exact accepted'
  · intro upToDate
    constructor
    · rintro member newPassword ⟨found, ⟨password, submitted, accepted⟩, given, confirmed⟩
      have copied := upToDate member password newPassword found submitted given confirmed
      obtain ⟨after, stored, rows⟩ := perform_stored
        ⟨found, ⟨password, submitted, copied.trans accepted⟩, given, confirmed⟩
      refine ⟨congrArg Prod.fst stored, ?_⟩
      rw [Application.step, stored]
      exact rows
    · intro refused
      obtain ⟨other, same⟩ := @perform_kept environment world user changePassword
        fun member newPassword grants => by
          obtain ⟨found, ⟨password, submitted, accepted⟩, given, confirmed⟩ := grants
          have copied := upToDate member password newPassword found submitted given confirmed
          exact refused member newPassword
            ⟨found, ⟨password, submitted, copied.symm.trans accepted⟩, given, confirmed⟩
      exact ⟨other, congrArg (fun db => db.member.rows) same⟩

/-! ### Runs -/

namespace PortalAction

/-- A condition on the changes of a password among the actions, at the session
that asks for them. -/
def OnPasswordChange (condition : Portal → ChangePasswordDto → User → Prop) (portal : Portal) :
    PortalAction → Prop
  | .request number (.processChangePassword changePassword) =>
      ∀ session, portal.sessions[number]? = some session →
        condition portal changePassword session.user
  | _ => True

end PortalAction

open PortalAction (OnPasswordChange)

/-- Along every run, the changes are made rightly if and only if each of them
meets a session that is up to date for it. -/
theorem run_changesRightly_iff (environment : Environment) (actions : List PortalAction) :
    Along (Portal.step environment)
        (OnPasswordChange fun portal => ChangesRightly environment portal.world)
        (.start environment) actions ↔
      Along (Portal.step environment)
        (OnPasswordChange fun portal => UpToDate environment portal.world.db)
        (.start environment) actions := by
  refine along_congr (fun _ => True) (fun _ _ _ _ => trivial) (fun portal action _ _ => ?_) trivial
  cases action with
  | request number request =>
      cases request with
      | processChangePassword changePassword =>
          exact forall₂_congr fun session _ => changesRightly_iff
      | _ => exact Iff.rfl
  | _ => exact Iff.rfl

/-- A character in two that a column takes. -/
def spell (character : Char) : List Char :=
  if character = '\x00' then ['0', '0'] else ['1', character]

theorem length_spell (character : Char) : (spell character).length = 2 := by
  unfold spell
  split <;> rfl

theorem spell_injective {first second : Char} (same : spell first = spell second) :
    first = second := by
  unfold spell at same
  grind

/-- A spelled text is twice as long. -/
theorem length_flatMap_spell (text : List Char) :
    (text.flatMap spell).length = 2 * text.length := by
  induction text with
  | nil => rfl
  | cons character rest ih =>
      rw [List.flatMap_cons, List.length_append, length_spell, ih, List.length_cons]
      omega

/-- Texts with one spelling are the same. -/
theorem flatMap_spell_injective {first second : List Char}
    (same : first.flatMap spell = second.flatMap spell) : first = second := by
  induction first generalizing second with
  | nil =>
      have length := congrArg List.length same
      rw [length_flatMap_spell, length_flatMap_spell, List.length_nil] at length
      exact (List.eq_nil_of_length_eq_zero (by omega)).symm
  | cons character rest ih =>
      cases second with
      | nil =>
          have length := congrArg List.length same
          rw [length_flatMap_spell, length_flatMap_spell, List.length_cons,
            List.length_nil] at length
          omega
      | cons other others =>
          rw [List.flatMap_cons, List.flatMap_cons] at same
          obtain ⟨head, tail⟩ := List.append_inj same
            ((length_spell character).trans (length_spell other).symm)
          rw [spell_injective head, ih tail]

/-- Passwords are spelled out, up to the 72 characters that count. -/
def Environment.prefixing : Environment :=
  { Environment.dev with
    encodePassword := fun password => .ofList ((password.toList.take 72).flatMap spell)
    encodePassword_fits := fun password => by
      refine varchar_eq_self_iff.mpr ⟨?_, ?_⟩
      · rw [String.toList_ofList]
        intro null
        obtain ⟨character, -, inside⟩ := List.mem_flatMap.mp null
        unfold spell at inside
        grind
      · have short := List.length_take_le 72 password.toList
        rw [String.length_ofList, length_flatMap_spell]
        omega
    matchesPassword := fun raw encoded => .ofList ((raw.toList.take 72).flatMap spell) = encoded }

/-- Among passwords of at most 72 characters, the encoded one alone matches. -/
def Environment.MatchesExactly (environment : Environment) : Prop :=
  ∀ raw password : String, raw.length ≤ 72 → password.length ≤ 72 →
    (environment.matchesPassword raw (environment.encodePassword password) = true ↔
      raw = password)

/-- The hash of this environment matches exactly the passwords it was made from. -/
theorem prefixing_matchesExactly : Environment.prefixing.MatchesExactly := by
  intro raw password rawFits passwordFits
  have takeRaw : raw.toList.take 72 = raw.toList := List.take_of_length_le rawFits
  have takePassword : password.toList.take 72 = password.toList :=
    List.take_of_length_le passwordFits
  change decide (String.ofList ((raw.toList.take 72).flatMap spell) =
    .ofList ((password.toList.take 72).flatMap spell)) = true ↔ _
  rw [takeRaw, takePassword, decide_eq_true_eq, String.ofList_inj]
  exact ⟨fun same => String.toList_inj.mp (flatMap_spell_injective same),
    fun same => congrArg _ (congrArg _ same)⟩

/-- The request that changes a password, confirmed as the form asks. -/
def changeTo (password newPassword : String) : SessionRequest :=
  .processChangePassword
    { password := some password
      newPassword := some newPassword
      newPasswordConfirm := some newPassword }

/-- The administrator with a password as it is stored. -/
def adminWith (password : String) : Member where
  id := 1
  password := Environment.prefixing.encodePassword password
  role := .roleAdmin
  username := some "admin"

/-- The administrator changes the password, and changes it again with the old
one. -/
def changeTwice : List PortalAction :=
  [.login "admin" "!mb220719", .request 0 (changeTo "!mb220719" "first"),
    .request 0 (changeTo "!mb220719" "second")]

/-- A password that is no longer the stored one is accepted. -/
theorem old_password_accepted :
    ¬ ∀ environment : Environment, environment.MatchesExactly →
      ∀ actions : List PortalAction, Along (Portal.step environment)
        (OnPasswordChange fun portal => ChangesRightly environment portal.world)
        (.start environment) actions := by
  intro rightly
  obtain ⟨-, -, again, -⟩ := rightly .prefixing prefixing_matchesExactly changeTwice
  have upToDate := changesRightly_iff.mp
    (again (.login (adminWith "!mb220719")) (by decide +kernel))
  have same := upToDate (adminWith "first") "!mb220719" "second" (by decide +kernel) rfl rfl rfl
  exact absurd same (by decide +kernel)

end MegaVnc
