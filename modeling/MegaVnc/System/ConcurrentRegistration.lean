import MegaVnc.Foundation.Tasks
import MegaVnc.System.DomainIntegrity
import MegaVnc.System.RepeaterId

/-! # Registrations at the same time

A registration reads the highest repeaterId, then looks for a PC of the name in
the group, then inserts its PC. Nothing in the schema keeps two PCs of a group
from having one name; two registrations at the same time are told apart only by
the unique repeaterId, when both have computed the same one. Nor does the search
find a name that the column cuts to the one it is sent.
-/

namespace MegaVnc

open Relational Fallible Application Transition
open RemotePcApiService (nextRepeaterId registerRemotePcWith)

/-- A call of `registerRemotePc` of one of the services. -/
structure RegisterCall where
  exception : ErrorCode → String → Exception
  notSelected : String
  registerRemotePcDto : RegisterRemotePcDto

/-- A registration between its steps: it has the repeaterId to give, and after
the checks the other columns. -/
inductive Registration where
  | topRead (call : RegisterCall) (repeaterId : Long)
  | nameChecked (repeaterId : Long) (name accessPassword : String) (group : Long)

namespace Registration

/-- The number that a registration has computed. -/
def repeaterId : Registration → Long
  | .topRead _ repeaterId | .nameChecked repeaterId _ _ _ => repeaterId

/-- A registration reads the highest repeaterId first. -/
def launch (world : World) (call : RegisterCall) : Registration :=
  .topRead call (nextRepeaterId world.db.findTopByOrderByRepeaterIdDesc)

/-- From the query of the highest repeaterId to the search for the name. -/
def checkName (db : Database) (call : RegisterCall) :
    Except Exception (String × String × Group) := do
  let remotePcName ← orElseThrow call.registerRemotePcDto.remotePcName .nullPointerException
  throwIf (remotePcName = "") (call.exception .missingPcName "")
  let accessPassword ← orElseThrow call.registerRemotePcDto.accessPassword .nullPointerException
  throwIf (accessPassword = "") (call.exception .missingAccessPassword "")
  let groupName ← orElseThrow call.registerRemotePcDto.groupName .nullPointerException
  throwIf (groupName = call.notSelected)
    (call.exception .groupNotSelected "PC를 추가하려면 상단에서 그룹을 먼저 선택해주세요.")
  let group ← orElseThrow (db.findByGroupName (some groupName)) (call.exception .groupNotFound "")
  throwIf (db.existsByNameAndGroup remotePcName group) (call.exception .pcNameDuplication "")
  pure (remotePcName, accessPassword, group)

/-- Insert and commit; the foreign key refuses a group deleted meanwhile. -/
def insert (db : Database) (repeaterId : Long) (name accessPassword : String) (group : Long) :
    Except Exception Database := do
  throwIf (db.segment.findById group = none) .dataIntegrityViolationException
  db.insertRemotePc repeaterId name accessPassword group

/-- A step that throws rolls the transaction back. -/
def advance (world : World) : Registration → World × Option Registration
  | .topRead call repeaterId =>
      match checkName world.db call with
      | .ok (name, accessPassword, group) =>
          (world, some (.nameChecked repeaterId name accessPassword group.id))
      | .error _ => (world, none)
  | .nameChecked repeaterId name accessPassword group =>
      match insert world.db repeaterId name accessPassword group with
      | .ok db => (world.withDb db, none)
      | .error _ => (world, none)

end Registration

/-- Registrations in steps, among operations of any other kind. -/
def registry (environment : Environment) :
    Tasks.System World Registration RegisterCall
      {operation : Operation // ¬ operation.Registers} where
  launch world call := some (Registration.launch world call)
  advance := Registration.advance
  operate world operation := step environment world operation.1

variable {environment : Environment} {world : World} {db next : Database}
  {call : RegisterCall} {repeaterId : Long} {name accessPassword : String} {group : Long}

/-! ### The steps of a registration -/

/-- The group of an accepted registration is found again. -/
theorem Registration.insert_of_mem {stored : Group} (present : stored ∈ db.segment.rows) :
    Registration.insert db repeaterId name accessPassword stored.id =
      db.insertRemotePc repeaterId name accessPassword stored.id := by
  have found : db.segment.findById stored.id = some stored :=
    Table.findById_eq_some.mpr ⟨present, rfl⟩
  simp only [Registration.insert, found, throwIf, reduceCtorEq, ↓reduceIte, ok_bind]

/-- The three steps without a pause are the body the services share. -/
theorem registerRemotePcWith_eq (db : Database) (call : RegisterCall) :
    registerRemotePcWith call.exception call.notSelected db call.registerRemotePcDto =
      (Registration.checkName db call >>= fun columns =>
        Registration.insert db (nextRepeaterId db.findTopByOrderByRepeaterIdDesc) columns.1
          columns.2.1 columns.2.2.id) := by
  simp only [registerRemotePcWith, Registration.checkName, bind_assoc, pure_bind]
  refine bind_congr fun name => bind_congr fun _ => bind_congr fun accessPassword =>
    bind_congr fun _ => bind_congr fun groupName => bind_congr fun _ => ?_
  cases found : db.findByGroupName (some groupName) with
  | none => rfl
  | some group =>
      simp only [orElseThrow, ok_bind]
      refine bind_congr fun _ => ?_
      rw [Registration.insert_of_mem (List.mem_of_find?_eq_some found)]

/-- A registration that passes its checks is accepted. -/
theorem Registration.accepted_of_checkName {group : Group}
    (passed : checkName db call = .ok (name, accessPassword, group)) :
    call.registerRemotePcDto.Accepted call.notSelected db name accessPassword group := by
  simp only [checkName, bind_eq_ok, orElseThrow_eq_ok, throwIf_eq_ok, pure_eq_ok] at passed
  obtain ⟨_, named, -, filled, _, secured, -, guarded, groupName, selected, -, chosen, _, found, -,
    free, same⟩ := passed
  cases same
  exact ⟨named, filled, secured, guarded, ⟨groupName, selected, chosen, found⟩,
    Bool.eq_false_iff.mpr free⟩

/-- A PC has the number. -/
def Taken (db : Database) (repeaterId : Long) : Prop :=
  ∃ remotePc ∈ db.remotePc.rows, remotePc.repeaterId = repeaterId

/-- An insert is refused when the group is gone, the number is taken, or a column does
not take its text. -/
theorem Registration.insert_eq_ok
    (inserted : Registration.insert db repeaterId name accessPassword group = .ok next) :
    (∃ stored ∈ db.segment.rows, stored.id = group) ∧ ¬ Taken db repeaterId ∧
      ∃ keptName keptPassword, varchar name = some keptName ∧
        varchar accessPassword = some keptPassword ∧
        ∃ after : Table RemotePc, next = { db with remotePc := after } ∧
          after.rows = db.remotePc.rows ++
            [RemotePc.createRemotePc repeaterId keptName keptPassword group
              db.remotePc.nextKey] := by
  simp only [Registration.insert, bind_eq_ok, throwIf_eq_ok] at inserted
  obtain ⟨-, present, inserted⟩ := inserted
  obtain ⟨stored, found⟩ := Option.ne_none_iff_exists'.mp present
  obtain ⟨keptName, keptPassword, named, secured, free, after, rfl, rows, -⟩ :=
    Database.insertRemotePc_eq_ok inserted
  have untaken : ¬ Taken db repeaterId := by
    rintro ⟨holder, holds, same⟩
    exact free holder holds same
  exact ⟨⟨stored, Table.findById_eq_some.mp found⟩, untaken, keptName, keptPassword, named,
    secured, after, rfl, rows⟩

/-! ### Registrations that could insert the same name -/

/-- The registration has passed the checks for the group, and the columns take its
texts, the one of the name as `name`. -/
def Registration.Claims (registration : Registration) (name : String)
    (group repeaterId : Long) : Prop :=
  ∃ sentName accessPassword,
    registration = .nameChecked repeaterId sentName accessPassword group ∧
      varchar sentName = some name ∧ (varchar accessPassword).isSome

/-- A registration that checks its name is not cut onto that of a PC of its group unless
its number is taken. One that inserts leaves no other one for the name and the group
with a free number of its own. An operation frees no number of a waiting registration
unless the PC of that name goes too. -/
structure Undisturbed (environment : Environment) (state : Tasks.State World Registration)
    (action : Tasks.Action RegisterCall {operation : Operation // ¬ operation.Registers}) :
    Prop where
  checks : ∀ position call repeaterId, action = .advance position →
    state.tasks[position]? = some (.topRead call repeaterId) →
    call.registerRemotePcDto.CutsOnto call.notSelected state.shared.db →
    Taken state.shared.db repeaterId
  inserts : ∀ position registration other name group repeaterId otherId,
    action = .advance position → state.tasks[position]? = some registration →
    registration.Claims name group repeaterId → other ∈ state.tasks →
    other.Claims name group otherId → (∃ stored ∈ state.shared.db.segment.rows, stored.id = group) →
    ¬ Taken state.shared.db repeaterId → otherId = repeaterId ∨ Taken state.shared.db otherId
  removes : ∀ operation registration name group, action = .operate operation →
    registration ∈ state.tasks → ∀ holder ∈ state.shared.db.remotePc.rows,
    registration.Claims name group holder.repeaterId →
    operation.1.Removes environment state.shared holder →
    ∀ namesake ∈ state.shared.db.remotePc.rows, namesake.name = name → namesake.group = group →
      operation.1.Removes environment state.shared namesake

/-- Where a PC of its name is stored, a waiting registration has a number that
is taken, and will be refused. -/
def Registration.Refused (world : World) (registration : Registration) : Prop :=
  ∀ name group repeaterId, registration.Claims name group repeaterId →
    Named world.db name group → Taken world.db repeaterId

/-- The names are apart, and the loader has nothing to load. -/
def Registered (world : World) : Prop :=
  PcNamesApart world.db.remotePc.rows ∧ ∃ remotePc ∈ world.db.remotePc.rows, IsBasePc remotePc

variable {state : Tasks.State World Registration} {registration : Registration}
  {action : Tasks.Action RegisterCall {operation : Operation // ¬ operation.Registers}}
  {actions : List (Tasks.Action RegisterCall {operation : Operation // ¬ operation.Registers})}

/-- An operation that removes no holder of a number without the namesake leaves
the registrations refused that were. -/
theorem Registration.Refused.operate (refused : registration.Refused state.shared)
    {operation : {operation : Operation // ¬ operation.Registers}}
    (undisturbed : Undisturbed environment state (.operate operation))
    (waiting : registration ∈ state.tasks)
    (base : ∃ remotePc ∈ state.shared.db.remotePc.rows, IsBasePc remotePc) :
    registration.Refused (step environment state.shared operation.1) := by
  rintro name group repeaterId claims ⟨new, member, named, inGroup⟩
  obtain ⟨namesake, present, sameId, -, sameName, -, sameGroup⟩ :=
    exists_sameIdentity_of_mem_step operation.2 base member
  obtain ⟨holder, holds, rfl⟩ := refused name group repeaterId claims
    ⟨namesake, present, sameName.trans named, sameGroup.trans inGroup⟩
  rcases mem_step_of_mem environment operation.1 holds with
    ⟨kept, keptIn, -, rfl | change⟩ | ⟨-, gone⟩
  · exact ⟨kept, keptIn, rfl⟩
  · exact ⟨kept, keptIn, change.sameIdentity.2.1.symm⟩
  · exact (undisturbed.removes operation registration name group rfl waiting holder holds claims
      gone namesake present (sameName.trans named) (sameGroup.trans inGroup) new member
      sameId.symm).elim

/-- A new PC for the name of a registration that is not refused keeps the names
apart, and leaves the other registrations refused. -/
theorem registered_insert {position : Nat} (valid : Registered state.shared)
    (refused : ∀ registration ∈ state.tasks, registration.Refused state.shared)
    (found : state.tasks[position]? = some (.nameChecked repeaterId name accessPassword group))
    (undisturbed : Undisturbed environment state (.advance position))
    (inserted : Registration.insert state.shared.db repeaterId name accessPassword group =
      .ok next) :
    Registered (state.shared.withDb next) ∧ ∀ other ∈ state.tasks.eraseIdx position,
      other.Refused (state.shared.withDb next) := by
  obtain ⟨stored, free, keptName, keptPassword, named, secured, after, rfl, rows⟩ :=
    Registration.insert_eq_ok inserted
  have claims : (Registration.nameChecked repeaterId name accessPassword group).Claims keptName
      group repeaterId := ⟨name, accessPassword, rfl, named, Option.isSome_of_eq_some secured⟩
  have unnamed : ¬ Named state.shared.db keptName group := fun taken =>
    free (refused _ (List.mem_of_getElem? found) keptName group repeaterId claims taken)
  refine ⟨⟨?_, ?_⟩, fun other member => ?_⟩
  · unfold PcNamesApart
    change (after.rows.map _).Nodup
    rw [rows]
    refine (Table.nodup_append_row _).mpr ⟨valid.1, fun remotePc present duplicate => ?_⟩
    rw [Prod.mk.injEq] at duplicate
    exact unnamed ⟨remotePc, present, duplicate⟩
  · obtain ⟨remotePc, present, based⟩ := valid.2
    exact ⟨remotePc, rows ▸ List.mem_append_left _ present, based⟩
  · rintro otherName otherGroup otherId otherClaims ⟨remotePc, present, named⟩
    have waiting := Tasks.mem_of_mem_eraseIdx member
    have kept {number : Long} (taken : Taken state.shared.db number) :
        ∃ remotePc ∈ after.rows, remotePc.repeaterId = number := by
      obtain ⟨holder, holds, numbered⟩ := taken
      exact ⟨holder, rows ▸ List.mem_append_left _ holds, numbered⟩
    change remotePc ∈ after.rows at present
    rw [rows] at present
    rcases List.mem_append.mp present with old | new
    · exact kept (refused other waiting otherName otherGroup otherId otherClaims
        ⟨remotePc, old, named⟩)
    · rw [List.mem_singleton.mp new] at named
      obtain ⟨rfl, rfl⟩ : keptName = otherName ∧ group = otherGroup := named
      rcases undisturbed.inserts position _ other keptName group repeaterId otherId rfl found claims
        waiting otherClaims stored free with rfl | taken
      · exact ⟨_, rows ▸ List.mem_append_right _ (List.mem_singleton_self _), rfl⟩
      · exact kept taken

/-- A step of a registration keeps the names apart. -/
theorem registered_advance {position : Nat} (valid : Registered state.shared)
    (refused : ∀ registration ∈ state.tasks, registration.Refused state.shared)
    (found : state.tasks[position]? = some registration)
    (undisturbed : Undisturbed environment state (.advance position)) :
    Registered (registration.advance state.shared).1 ∧
      (∀ next ∈ (registration.advance state.shared).2,
        next.Refused (registration.advance state.shared).1) ∧
      ∀ other ∈ state.tasks.eraseIdx position,
        other.Refused (registration.advance state.shared).1 := by
  have others : ∀ other ∈ state.tasks.eraseIdx position, other.Refused state.shared :=
    fun other member => refused other (Tasks.mem_of_mem_eraseIdx member)
  cases registration with
  | topRead call repeaterId =>
      cases passed : Registration.checkName state.shared.db call with
      | error exception =>
          simp only [Registration.advance, passed]
          exact ⟨valid, fun next ended => absurd ended (Option.not_mem_none next), others⟩
      | ok columns =>
          obtain ⟨name, accessPassword, group⟩ := columns
          simp only [Registration.advance, passed]
          refine ⟨valid, fun next advanced => ?_, others⟩
          cases advanced
          rintro keptName _ _ ⟨_, _, same, keeps, secured⟩ taken
          cases same
          exact undisturbed.checks position call repeaterId rfl found ⟨name, accessPassword, group,
            keptName, Registration.accepted_of_checkName passed, secured, keeps, taken⟩
  | nameChecked repeaterId name accessPassword group =>
      cases inserted : Registration.insert state.shared.db repeaterId name accessPassword group with
      | error exception =>
          simp only [Registration.advance, inserted]
          exact ⟨valid, fun next ended => absurd ended (Option.not_mem_none next), others⟩
      | ok db =>
          obtain ⟨kept, waiting⟩ := registered_insert valid refused found undisturbed inserted
          simp only [Registration.advance, inserted]
          exact ⟨kept, fun next ended => absurd ended (Option.not_mem_none next), waiting⟩

/-- An undisturbed step lets no registration double a name. -/
theorem sound_step (sound : Tasks.Sound Registered (fun world registration =>
      registration.Refused world) state)
    (undisturbed : Undisturbed environment state action) :
    Tasks.Sound Registered (fun world registration => registration.Refused world)
      ((registry environment).step state action) := by
  apply sound.step
  · rintro call registration - launched
    cases launched
    rintro name group repeaterId ⟨_, _, same, -⟩
    cases same
  · rintro position registration rfl found
    exact registered_advance sound.valid sound.holds found undisturbed
  · rintro operation rfl
    refine ⟨⟨?_, exists_basePc_step sound.valid.2⟩, fun registration waiting => ?_⟩
    · refine (step_effect environment state.shared operation.1).namesApart ?_ sound.valid.2
        sound.valid.1
      rintro ⟨_, _, registers, -⟩
      exact operation.2 (Operation.registers_of_registration registers)
    · exact (sound.holds registration waiting).operate undisturbed waiting sound.valid.2

/-- Registrations in any interleaving, with each other and with all other
operations, keep the names of a group's PCs apart as long as their numbers stop
each other and no name is cut onto another. -/
theorem names_apart_undisturbed (reached : Application.Reachable environment world)
    (apart : PcNamesApart world.db.remotePc.rows)
    (undisturbed : Along (registry environment).step (Undisturbed environment)
      (Tasks.start world) actions) :
    PcNamesApart
      (run (registry environment).step (Tasks.start world) actions).shared.db.remotePc.rows := by
  have sound := undisturbed.run_invariant (Tasks.Sound Registered fun world registration =>
      registration.Refused world) (fun _ _ condition sound => sound_step sound condition)
    (Tasks.sound_start ⟨apart, reached.exists_basePc⟩)
  exact sound.valid.1

/-! ### Registrations while nothing is deleted -/

/-- The number is that of the next PC, or it is taken as are all that follow it,
up to the highest one. -/
def InLine (db : Database) (repeaterId : Long) : Prop :=
  (∀ number, repeaterId ≤ number → ¬ Taken db number →
      ∀ remotePc ∈ db.remotePc.rows, remotePc.repeaterId < number) ∧
    ∃ remotePc ∈ db.remotePc.rows, repeaterId ≤ remotePc.repeaterId + 1

/-- There is one free number in line. -/
theorem InLine.unique {first second : Long} (firstIn : InLine db first)
    (secondIn : InLine db second) (firstFree : ¬ Taken db first)
    (secondFree : ¬ Taken db second) : first = second := by
  obtain ⟨below, remotePc, present, reaches⟩ := firstIn
  obtain ⟨otherBelow, other, otherIn, otherReaches⟩ := secondIn
  have belowFirst := below first (Int.le_refl _) firstFree other otherIn
  have belowSecond := otherBelow second (Int.le_refl _) secondFree remotePc present
  exact Int.le_antisymm (Int.le_trans reaches belowSecond) (Int.le_trans otherReaches belowFirst)

/-- A number that is computed now is in line. -/
theorem inLine_nextRepeaterId (occupied : ∃ remotePc, remotePc ∈ db.remotePc.rows) :
    InLine db (nextRepeaterId db.findTopByOrderByRepeaterIdDesc) := by
  refine ⟨fun number later _ remotePc present =>
    Int.lt_of_lt_of_le (RemotePcApiService.lt_nextRepeaterId present) later, ?_⟩
  cases found : db.findTopByOrderByRepeaterIdDesc with
  | none =>
      obtain ⟨remotePc, present⟩ := occupied
      rw [Database.findTop_eq_none.mp found] at present
      cases present
  | some top => exact ⟨top, (Database.findTop_eq_some found).1, Int.le_refl _⟩

/-- Numbers are in line with the same numbers taken. -/
theorem InLine.of_taken (inLine : InLine db repeaterId)
    (same : ∀ number, Taken next number ↔ Taken db number) : InLine next repeaterId := by
  obtain ⟨below, top, present, reaches⟩ := inLine
  refine ⟨fun number later free remotePc member => ?_, ?_⟩
  · obtain ⟨old, oldIn, sameNumber⟩ := (same remotePc.repeaterId).mp ⟨remotePc, member, rfl⟩
    exact sameNumber ▸ below number later (fun taken => free ((same number).mpr taken)) old oldIn
  · obtain ⟨new, newIn, sameNumber⟩ := (same top.repeaterId).mpr ⟨top, present, rfl⟩
    exact ⟨new, newIn, sameNumber ▸ reaches⟩

/-- A free number in line that is given to a new PC leaves the others in line. -/
theorem InLine.inserted {added : Long} {new : RemotePc} (inLine : InLine db repeaterId)
    (addedIn : InLine db added) (named : new.repeaterId = added)
    (rows : next.remotePc.rows = db.remotePc.rows ++ [new]) : InLine next repeaterId := by
  obtain ⟨below, top, present, reaches⟩ := inLine
  obtain ⟨-, last, lastIn, addedReaches⟩ := addedIn
  have kept {remotePc : RemotePc} (member : remotePc ∈ db.remotePc.rows) :
      remotePc ∈ next.remotePc.rows := rows ▸ List.mem_append_left _ member
  refine ⟨fun number later free remotePc member => ?_, top, kept present, reaches⟩
  have unused : ¬ Taken db number :=
    fun ⟨holder, holds, numbered⟩ => free ⟨holder, kept holds, numbered⟩
  rw [rows] at member
  rcases List.mem_append.mp member with old | appended
  · exact below number later unused remotePc old
  · have belowLast := below number later unused last lastIn
    have different : added ≠ number := by
      rintro rfl
      exact free ⟨new, rows ▸ List.mem_append_right _ (List.mem_singleton_self _), named⟩
    rw [List.mem_singleton.mp appended, named]
    exact lt_of_le_of_ne (Int.le_trans addedReaches belowLast) different

/-- No operation removes a PC, and no registration is cut onto one. -/
structure Quiet (environment : Environment) (state : Tasks.State World Registration)
    (action : Tasks.Action RegisterCall {operation : Operation // ¬ operation.Registers}) :
    Prop where
  stays : ∀ operation, action = .operate operation →
    ∀ remotePc ∈ state.shared.db.remotePc.rows,
      ¬ operation.1.Removes environment state.shared remotePc
  uncut : ∀ position call repeaterId, action = .advance position →
    state.tasks[position]? = some (.topRead call repeaterId) →
    ¬ call.registerRemotePcDto.CutsOnto call.notSelected state.shared.db

/-- The numbers of all waiting registrations are in line. -/
def AllInLine : Tasks.State World Registration → Prop :=
  Tasks.Sound (fun world => ∃ remotePc ∈ world.db.remotePc.rows, IsBasePc remotePc)
    fun world registration => InLine world.db registration.repeaterId

/-- An operation that removes no PC frees no number and takes none. -/
theorem taken_step {operation : Operation} (other : ¬ operation.Registers)
    (base : ∃ remotePc ∈ world.db.remotePc.rows, IsBasePc remotePc)
    (quiet : ∀ remotePc ∈ world.db.remotePc.rows,
      ¬ operation.Removes environment world remotePc) (number : Long) :
    Taken (step environment world operation).db number ↔ Taken world.db number := by
  constructor
  · rintro ⟨new, member, rfl⟩
    obtain ⟨old, present, -, sameNumber, -⟩ := exists_sameIdentity_of_mem_step other base member
    exact ⟨old, present, sameNumber⟩
  · rintro ⟨old, present, rfl⟩
    rcases mem_step_of_mem environment operation present with
      ⟨new, member, -, rfl | change⟩ | ⟨-, gone⟩
    · exact ⟨new, member, rfl⟩
    · exact ⟨new, member, change.sameIdentity.2.1.symm⟩
    · exact (quiet old present gone).elim

/-- While no PC is removed, each step keeps the numbers in line. -/
theorem AllInLine.step (inLine : AllInLine state) (quiet : Quiet environment state action) :
    AllInLine ((registry environment).step state action) := by
  obtain ⟨base, waiting⟩ := inLine
  apply Tasks.Sound.step ⟨base, waiting⟩
  · rintro call registration - launched
    cases launched
    exact inLine_nextRepeaterId ⟨_, base.choose_spec.1⟩
  · rintro position registration rfl found
    have inLine := waiting registration (List.mem_of_getElem? found)
    have others : ∀ other ∈ state.tasks.eraseIdx position,
        InLine state.shared.db other.repeaterId :=
      fun other member => waiting other (Tasks.mem_of_mem_eraseIdx member)
    cases registration with
    | topRead call repeaterId =>
        cases passed : Registration.checkName state.shared.db call with
        | error exception =>
            simp only [registry, Registration.advance, passed]
            exact ⟨base, fun next ended => absurd ended (Option.not_mem_none next), others⟩
        | ok columns =>
            simp only [registry, Registration.advance, passed]
            refine ⟨base, fun next advanced => ?_, others⟩
            cases advanced
            exact inLine
    | nameChecked repeaterId name accessPassword group =>
        cases inserted : Registration.insert state.shared.db repeaterId name accessPassword
            group with
        | error exception =>
            simp only [registry, Registration.advance, inserted]
            exact ⟨base, fun next ended => absurd ended (Option.not_mem_none next), others⟩
        | ok db =>
            obtain ⟨-, -, _, _, -, -, after, rfl, rows⟩ := Registration.insert_eq_ok inserted
            simp only [registry, Registration.advance, inserted]
            refine ⟨?_, fun next ended => absurd ended (Option.not_mem_none next),
              fun other member => (others other member).inserted inLine rfl rows⟩
            obtain ⟨remotePc, present, based⟩ := base
            exact ⟨remotePc, rows ▸ List.mem_append_left _ present, based⟩
  · rintro operation rfl
    refine ⟨exists_basePc_step base, fun registration member => ?_⟩
    exact (waiting registration member).of_taken
      (taken_step operation.2 base (quiet.stays operation rfl))

/-- While no PC is removed and no name is cut, the registrations stop each other. -/
theorem AllInLine.undisturbed (inLine : AllInLine state) (quiet : Quiet environment state action) :
    Undisturbed environment state action where
  checks position call repeaterId advances found cuts :=
    (quiet.uncut position call repeaterId advances found cuts).elim
  inserts := by
    rintro position registration other name group first second rfl found ⟨_, _, rfl, -⟩ waiting
      ⟨_, _, rfl, -⟩ - free
    by_cases taken : Taken state.shared.db second
    · exact Or.inr taken
    · exact Or.inl ((inLine.holds _ waiting).unique
        (inLine.holds _ (List.mem_of_getElem? found)) taken free)
  removes := fun operation _ _ _ operates _ holder holds _ gone =>
    (quiet.stays operation operates holder holds gone).elim

/-- A run that removes no PC and cuts no name is undisturbed. -/
theorem undisturbed_of_quiet (reached : Application.Reachable environment world)
    (quiet : Along (registry environment).step (Quiet environment) (Tasks.start world) actions) :
    Along (registry environment).step (Undisturbed environment) (Tasks.start world) actions :=
  quiet.imp_of_invariant AllInLine (fun _ _ quiet inLine => inLine.step quiet)
    (fun _ _ quiet inLine => inLine.undisturbed quiet) (Tasks.sound_start reached.exists_basePc)

/-- The name that is sent fits its column. -/
def RegisterCall.Short (call : RegisterCall) : Prop :=
  ∀ name, call.registerRemotePcDto.remotePcName = some name → name.length ≤ 255

/-- The names that waiting registrations still have to check fit their column. -/
def AllShort : Tasks.State World Registration → Prop :=
  Tasks.Sound (fun _ => True) fun _ registration =>
    ∀ call repeaterId, registration = .topRead call repeaterId → call.Short

/-- Only launched names are ever checked. -/
theorem AllShort.step (short : AllShort state)
    (launches : ∀ call, action = .launch call → call.Short) :
    AllShort ((registry environment).step state action) := by
  apply Tasks.Sound.step short
  · rintro call registration launched start _ _ rfl
    cases start
    exact launches call launched
  · rintro position registration rfl -
    refine ⟨trivial, fun next advanced call repeaterId waits => ?_,
      fun other member => short.holds other (Tasks.mem_of_mem_eraseIdx member)⟩
    -- A registration that has checked its name does not check it again.
    subst waits
    cases registration with
    | topRead call repeaterId =>
        simp only [registry, Registration.advance] at advanced
        split at advanced
        · cases advanced
        · cases advanced
    | nameChecked repeaterId name accessPassword group =>
        simp only [registry, Registration.advance] at advanced
        split at advanced
        · cases advanced
        · cases advanced
  · rintro operation rfl
    exact ⟨trivial, fun registration member => short.holds registration member⟩

/-- Registrations of names that fit their column are not cut. -/
theorem quiet_of_short (short : ∀ call, .launch call ∈ actions → call.Short)
    (stays : Along (registry environment).step (fun state action => ∀ operation,
      action = .operate operation → ∀ remotePc ∈ state.shared.db.remotePc.rows,
        ¬ operation.1.Removes environment state.shared remotePc) (Tasks.start world) actions) :
    Along (registry environment).step (Quiet environment) (Tasks.start world) actions := by
  have launches : Along (registry environment).step
      (fun _ action => ∀ call, action = .launch call → call.Short) (Tasks.start world) actions :=
    .of_forall fun _ action member call launched => short call (launched ▸ member)
  refine (along_and.mpr ⟨stays, launches⟩).imp_of_invariant AllShort
    (fun state action met allShort => allShort.step met.2) (fun state action met allShort => ?_)
    (Tasks.sound_start trivial)
  refine ⟨met.1, fun position call repeaterId _ found => ?_⟩
  exact RegisterRemotePcDto.not_cutsOnto_of_short
    (allShort.holds _ (List.mem_of_getElem? found) call repeaterId rfl)

/-! ### The highest PC deleted between two registrations -/

/-- An app registers a PC in the group Lab. -/
def labCall (pcName : String) : RegisterCall where
  exception := .api
  notSelected := ""
  registerRemotePcDto :=
    { accessPassword := some "1111", remotePcName := some pcName, groupName := some "Lab" }

/-- Two registrations of one name, step by step in turn. -/
theorem laboratory_names_apart :
    PcNamesApart (run (registry .dev).step (Tasks.start laboratory)
      [.launch (labCall "PC-2"), .launch (labCall "PC-2"), .advance 0, .advance 0, .advance 0,
        .advance 0]).shared.db.remotePc.rows := by
  have apart : PcNamesApart laboratory.db.remotePc.rows := by
    unfold PcNamesApart
    decide +kernel
  have quiet : Along (registry .dev).step (Quiet .dev) (Tasks.start laboratory)
      [.launch (labCall "PC-2"), .launch (labCall "PC-2"), .advance 0, .advance 0, .advance 0,
        .advance 0] := by
    refine quiet_of_short (fun call member => ?_)
      (.of_forall fun state action member operation operates => ?_)
    · obtain rfl : call = labCall "PC-2" := by simpa using member
      rintro _ ⟨⟩
      decide
    · subst operates
      simp at member
  exact names_apart_undisturbed ⟨_, rfl⟩ apart (undisturbed_of_quiet ⟨_, rfl⟩ quiet)

/-- The first registration has computed 102 when the PC with 101 is deleted; the
second one computes 101, and both find the name free. -/
theorem names_shared_after_deletion :
    ¬ ∀ (environment : Environment) (world : World)
        (actions : List
          (Tasks.Action RegisterCall {operation : Operation // ¬ operation.Registers})),
      Application.Reachable environment world →
      PcNamesApart
        (run (registry environment).step (Tasks.start world) actions).shared.db.remotePc.rows := by
  intro apart
  have shared := apart .dev laboratory
    [.launch (labCall "PC-2"), .operate ⟨.deleteRemotePc adminUser 2, id⟩,
      .launch (labCall "PC-2"), .advance 0, .advance 0, .advance 0, .advance 0] ⟨_, rfl⟩
  revert shared
  unfold PcNamesApart
  decide +kernel

end MegaVnc
