import MegaVnc.System.AccessLog
import MegaVnc.System.Delivery
import MegaVnc.System.ForeignPcs
import MegaVnc.System.GroupGuard
import MegaVnc.System.Holder
import MegaVnc.System.RepeaterId
import MegaVnc.Web.RemotePcsPage

/-! # The page kept up to date

A page that is open follows the PCs it lists by the messages alone. An event
tells the whole state of its PC, so that its row is drawn anew, with the registration time
in the format of the server. A release takes the registration time away and sends no
message.
-/

namespace MegaVnc

open Relational Fallible Application Transition
open MessageService (Signals afterEvent)

/-- The application, and the table of a page that is open. -/
structure OpenPage where
  world : World
  rows : List PageRow

namespace OpenPage

/-- The page as it is loaded, in the locale of the browser. -/
def load (pages : DateFormat) (world : World) (remotePcs : List ResponseRemotePcDto) :
    OpenPage where
  world := world
  rows := remotePcs.map (RemotePcsTemplate.row pages world.db)

/-- The messages of an operation arrive in order before the next operation. -/
def step (messages : DateFormat) (environment : Environment) (page : OpenPage)
    (operation : Operation) : OpenPage where
  world := Application.step environment page.world operation
  rows := ((operation.sent environment page.world).map (StatusUpdate.data messages)).foldl
    onmessage page.rows

/-- The page has a row of the PC, and it is the one a reload would show. -/
def Current (pages : DateFormat) (page : OpenPage) (id : Long) : Prop :=
  (∃ row ∈ page.rows, row.id = id) ∧
    ∀ remotePc ∈ page.world.db.remotePc.rows, remotePc.id = id →
      ∀ row ∈ page.rows, row.id = id →
        row = RemotePcsTemplate.row pages page.world.db (.ofRemotePc remotePc)

/-- The message and the template format the registration time of the PC alike. -/
def FormattedAlike (messages pages : DateFormat) (page : OpenPage) (id : Long) : Prop :=
  ∀ remotePc ∈ page.world.db.remotePc.rows, remotePc.id = id →
    ∀ date ∈ remotePc.assignedAt, messages.format date = pages.format date

end OpenPage

/-- A line with an event of the PC. -/
def Operation.Announces (repeaterId : Long) : Operation → Prop
  | .processMessage _ message => ∃ evNum, Signals message evNum repeaterId
  | _ => False

/-- A release that takes a registration time away from the PC. -/
def Operation.Withdraws (db : Database) (id : Long) : Operation → Prop
  | .disAssignRemotePc reconnectId => ∃ remotePc,
      db.findByReconnectId reconnectId = .ok (some remotePc) ∧ remotePc.id = id ∧
        remotePc.assignedAt ≠ none
  | _ => False

variable {dateFormat messages pages : DateFormat} {environment : Environment} {world : World}
  {operation : Operation} {operations : List Operation} {page : OpenPage}
  {remotePc stored new : RemotePc} {id : Long}

@[simp] theorem OpenPage.run_world (page : OpenPage) (operations : List Operation) :
    (run (OpenPage.step messages environment) page operations).world =
      run (Application.step environment) page.world operations := by
  induction operations generalizing page with
  | nil => rfl
  | cons operation rest ih => exact ih (page.step messages environment operation)

/-- Every row of the list is that of a stored PC. -/
theorem mem_showRemotePcs {db : Database} {user : User} {selectedGroupName : Option String}
    {groups : List Group} {remotePcs : List ResponseRemotePcDto} {response : ResponseRemotePcDto}
    (shown : showRemotePcs db user selectedGroupName = .ok (.remotePcs groups remotePcs))
    (listed : response ∈ remotePcs) :
    ∃ remotePc ∈ db.remotePc.rows, .ofRemotePc remotePc = response := by
  have ofGroup {group : Long} {response : ResponseRemotePcDto}
      (member : response ∈ (db.findByGroup group).map .ofRemotePc) :
      ∃ remotePc ∈ db.remotePc.rows, .ofRemotePc remotePc = response := by
    obtain ⟨remotePc, found, same⟩ := List.mem_map.mp member
    exact ⟨remotePc, (List.mem_filter.mp found).1, same⟩
  have ofAll {groups : List Group}
      (member : response ∈ RemotePcService.findByGroups db groups) :
      ∃ remotePc ∈ db.remotePc.rows, .ofRemotePc remotePc = response := by
    obtain ⟨group, -, inGroup⟩ := List.mem_flatMap.mp (mem_sortById.mp member)
    exact ofGroup inGroup
  simp only [showRemotePcs, bind_eq_ok] at shown
  obtain ⟨_, -, selected⟩ := shown
  split at selected
  · cases pure_eq_ok.mp selected
    exact ofAll listed
  · split at selected
    · cases pure_eq_ok.mp selected
      exact ofAll listed
    · simp only [RemotePcService.findByGroupName, bind_eq_ok, pure_eq_ok,
        Reply.remotePcs.injEq] at selected
      obtain ⟨_, ⟨group, -, member, -, -, -, rfl⟩, -, rfl⟩ := selected
      exact ofGroup (mem_sortById.mp listed)

/-! ### What an operation sends about one PC -/

/-- An event of a stored PC is told; nothing else is. -/
theorem sent_cases (environment : Environment) (world : World) (operation : Operation) :
    operation.sent environment world = [] ∧
        (∀ stored ∈ world.db.remotePc.rows, ¬ operation.Announces stored.repeaterId) ∨
      ∃ now evNum, ∃ told ∈ world.db.remotePc.rows, operation.Announces told.repeaterId ∧
        operation.sent environment world = [(afterEvent now evNum told).statusUpdate] ∧
        (step environment world operation).db.remotePc.rows =
          Table.replace world.db.remotePc.rows (afterEvent now evNum told) := by
  by_cases line : ∃ now message, operation = .processMessage now message
  · obtain ⟨now, message, rfl⟩ := line
    cases concerned : world.db.concerned message with
    | none =>
        refine Or.inl ⟨?_, ?_⟩
        · rw [Operation.sent, processMessage_unconcerned concerned, List.drop_length]
        · rintro stored present ⟨evNum, eventMessage, parsed, rfl, named, valid⟩
          have found : world.db.concerned message = some stored :=
            concerned_eq_some.mpr ⟨eventMessage, parsed, valid,
              Database.findByRepeaterId_eq_some.mpr ⟨present, named.symm⟩⟩
          rw [concerned] at found
          cases found
    | some told =>
        obtain ⟨eventMessage, parsed, valid, present, sent, rows⟩ :=
          @processMessage_concerned environment world now message told concerned
        obtain ⟨again, parsedAgain, -, found⟩ := concerned_eq_some.mp concerned
        cases parsed.symm.trans parsedAgain
        have named := (Database.findByRepeaterId_eq_some.mp found).2
        exact Or.inr ⟨now, eventMessage.evNum, told, present,
          ⟨eventMessage.evNum, eventMessage, parsed, rfl, named.symm, valid⟩, sent, rows⟩
  · have other : ∀ now message, operation ≠ .processMessage now message :=
      fun now message same => line ⟨now, message, same⟩
    refine Or.inl ⟨sent_eq_nil other, fun stored _ announces => ?_⟩
    cases operation with
    | processMessage now message => exact other now message rfl
    | _ => exact announces

/-! ### One operation, one PC -/

/-- The row of a PC keeps its group. -/
theorem group_findById_step (reached : Application.Reachable environment world)
    (present : new ∈ (step environment world operation).db.remotePc.rows)
    (given : ∃ group ∈ world.db.segment.rows, group.id = new.group) :
    (step environment world operation).db.segment.findById new.group =
      world.db.segment.findById new.group := by
  obtain ⟨group, stored, named⟩ := given
  have intact : Intact (step environment world operation).db :=
    reached.intact.step reached.exists_basePc
  obtain ⟨after, afterIn, afterNamed⟩ := intact.referring.pcGroups new present
  have same : after = group := by
    rcases (step_directoryEffect environment world operation).old_group reached.intact.baseGroup
      afterIn with old | fresh
    · exact Table.eq_of_key_eq old stored (afterNamed.trans named.symm)
    · have below := world.db.segment.keys_below group stored
      exact absurd (named.trans (afterNamed.symm.trans fresh)) (Int.ne_of_lt below)
  rw [Table.findById_eq_some.mpr ⟨afterIn, afterNamed⟩,
    Table.findById_eq_some.mpr ⟨stored, named⟩, same]

/-- Rows of other PCs and of other times of the same PC, as far as the template
reads them. -/
theorem row_congr {db next : Database} {first second : ResponseRemotePcDto}
    (sameId : first.id = second.id) (sameName : first.name = second.name)
    (sameAssignment : first.assignedAt = second.assignedAt)
    (sameStatus : first.status = second.status)
    (sameGroup : db.segment.findById first.group = next.segment.findById second.group) :
    RemotePcsTemplate.row dateFormat db first = RemotePcsTemplate.row dateFormat next second := by
  simp only [RemotePcsTemplate.row, sameId, sameName, sameAssignment, sameStatus, sameGroup]

/-- The message about a PC draws its row anew, whatever status and registration
time were shown. -/
theorem onmessage_redraws {db next : Database} {shown : ResponseRemotePcDto}
    (sameId : shown.id = new.id) (sameName : shown.name = new.name)
    (sameGroup : db.segment.findById shown.group = next.segment.findById new.group) :
    (RemotePcsTemplate.row dateFormat db shown).onmessage (new.statusUpdate.data messages) =
      RemotePcsTemplate.row messages next (.ofRemotePc new) := by
  have told : new.statusUpdate.data messages =
      { id := new.id, status := new.status.toValue
        registeredAt := RemotePcsTemplate.registeredAt messages new.assignedAt } :=
    congrArg (StatusData.mk new.id new.status.toValue) (data_registeredAt new.statusUpdate)
  rw [told, PageRow.onmessage_eq rfl rfl new.status (registeredAt_ne_null new.assignedAt)]
  simp only [RemotePcsTemplate.row, ResponseRemotePcDto.ofRemotePc, sameId, sameName, sameGroup]

/-- The page shows the PC with its present status, and with its registration time in some
format unless that was taken away. -/
structure OpenPage.Follows (page : OpenPage) (remotePc : RemotePc) : Prop where
  stored : remotePc ∈ page.world.db.remotePc.rows
  listed : ∃ row ∈ page.rows, row.id = remotePc.id
  shown : ∀ row ∈ page.rows, row.id = remotePc.id → ∃ dateFormat told,
    (remotePc.assignedAt = none ∨ told = remotePc.assignedAt) ∧
      row = RemotePcsTemplate.row dateFormat page.world.db
        (.ofRemotePc { remotePc with assignedAt := told })

/-- A page is current about a stored PC when it shows it as a reload would. -/
theorem OpenPage.current_iff (stored : remotePc ∈ page.world.db.remotePc.rows) :
    page.Current pages remotePc.id ↔ (∃ row ∈ page.rows, row.id = remotePc.id) ∧
      ∀ row ∈ page.rows, row.id = remotePc.id →
        row = RemotePcsTemplate.row pages page.world.db (.ofRemotePc remotePc) := by
  refine and_congr_right fun _ => ⟨fun current => current remotePc stored rfl, ?_⟩
  intro current other otherIn sameId
  rw [Table.eq_of_key_eq otherIn stored sameId]
  exact current

/-- The formats matter only for the date of the assignment, where there is one. -/
theorem OpenPage.formattedAlike_iff (stored : remotePc ∈ page.world.db.remotePc.rows) :
    page.FormattedAlike messages pages remotePc.id ↔
      ∀ date ∈ remotePc.assignedAt, messages.format date = pages.format date := by
  refine ⟨fun alike => alike remotePc stored rfl, fun alike other otherIn sameId => ?_⟩
  rw [Table.eq_of_key_eq otherIn stored sameId]
  exact alike

section OneRow

variable {next : OpenPage}

/-- Where the rows of the PC stay on the page, and nothing shown of it changes. -/
theorem OpenPage.Follows.unchanged (follows : page.Follows remotePc)
    (present : new ∈ next.world.db.remotePc.rows)
    (rows : ∀ row, row.id = remotePc.id → (row ∈ next.rows ↔ row ∈ page.rows))
    (same : remotePc.SameIdentity new) (sameStatus : new.status = remotePc.status)
    (sameAssignment : new.assignedAt = remotePc.assignedAt)
    (sameGroup : next.world.db.segment.findById new.group =
      page.world.db.segment.findById new.group) :
    next.Follows new ∧ (next.Current pages new.id ↔ page.Current pages new.id) ∧
      (next.FormattedAlike messages pages new.id ↔
        page.FormattedAlike messages pages new.id) := by
  obtain ⟨sameId, -, sameName, -, grouped⟩ := same
  rw [← grouped] at sameGroup
  have sameGroups : page.world.db.segment.findById remotePc.group =
      next.world.db.segment.findById new.group := grouped ▸ sameGroup.symm
  have drawn (dateFormat : DateFormat) (told : Option Date) :
      RemotePcsTemplate.row dateFormat page.world.db
          (.ofRemotePc { remotePc with assignedAt := told }) =
        RemotePcsTemplate.row dateFormat next.world.db
          (.ofRemotePc { new with assignedAt := told }) :=
    row_congr sameId sameName rfl sameStatus.symm sameGroups
  obtain ⟨stored, ⟨listed, listedIn, listedId⟩, shown⟩ := follows
  refine ⟨?_, ?_, ?_⟩
  · refine ⟨present, ⟨listed, (rows listed listedId).mpr listedIn, listedId.trans sameId⟩, ?_⟩
    intro row rowIn rowId
    have own : row.id = remotePc.id := rowId.trans sameId.symm
    obtain ⟨dateFormat, told, kept, rfl⟩ := shown row ((rows row own).mp rowIn) own
    exact ⟨dateFormat, told, sameAssignment ▸ kept, drawn dateFormat told⟩
  · have whole : RemotePcsTemplate.row pages page.world.db (.ofRemotePc remotePc) =
        RemotePcsTemplate.row pages next.world.db (.ofRemotePc new) :=
      row_congr sameId sameName sameAssignment.symm sameStatus.symm sameGroups
    rw [current_iff present, ← sameId, current_iff stored, whole]
    refine and_congr (exists_congr fun row => ?_) (forall_congr' fun row => ?_)
    · exact and_congr_left fun own => rows row own
    · constructor
      · exact fun current rowIn own => current ((rows row own).mpr rowIn) own
      · exact fun current rowIn own => current ((rows row own).mp rowIn) own
  · rw [formattedAlike_iff present, ← sameId, formattedAlike_iff stored, sameAssignment]

/-- Where the registration time is taken away, the page still shows it. -/
theorem OpenPage.Follows.withdrawn (follows : page.Follows remotePc)
    (present : remotePc.disAssign ∈ next.world.db.remotePc.rows) (rows : next.rows = page.rows)
    (assigned : remotePc.assignedAt ≠ none)
    (sameGroup : next.world.db.segment.findById remotePc.group =
      page.world.db.segment.findById remotePc.group) :
    next.Follows remotePc.disAssign ∧ ¬ next.Current pages remotePc.id := by
  obtain ⟨stored, ⟨listed, listedIn, listedId⟩, shown⟩ := follows
  have drawn (dateFormat : DateFormat) (told : Option Date) :
      RemotePcsTemplate.row dateFormat page.world.db
          (.ofRemotePc { remotePc with assignedAt := told }) =
        RemotePcsTemplate.row dateFormat next.world.db
          (.ofRemotePc { remotePc.disAssign with assignedAt := told }) :=
    row_congr rfl rfl rfl rfl sameGroup.symm
  constructor
  · refine ⟨present, ⟨listed, rows ▸ listedIn, listedId⟩, fun row rowIn rowId => ?_⟩
    rw [rows] at rowIn
    obtain ⟨dateFormat, told, -, rfl⟩ := shown row rowIn rowId
    exact ⟨dateFormat, told, Or.inl rfl, drawn dateFormat told⟩
  · intro current
    have reload := ((current_iff present).mp current).2 listed (rows ▸ listedIn) listedId
    obtain ⟨dateFormat, told, unassigned | same, drawnOld⟩ := shown listed listedIn listedId
    · exact assigned unassigned
    · obtain ⟨date, registered⟩ := Option.ne_none_iff_exists'.mp assigned
      have times := congrArg PageRow.registeredAt (drawnOld.symm.trans reload)
      change RemotePcsTemplate.registeredAt dateFormat told =
        RemotePcsTemplate.registeredAt pages none at times
      rw [same, registered] at times
      change dateFormat.format date = "" at times
      exact dateFormat.format_ne date (by decide) times

/-- The rows of two formats are one when the registration time is formatted alike. -/
theorem row_eq_row_iff {db : Database} :
    RemotePcsTemplate.row messages db (.ofRemotePc remotePc) =
        RemotePcsTemplate.row pages db (.ofRemotePc remotePc) ↔
      ∀ date ∈ remotePc.assignedAt, messages.format date = pages.format date := by
  have times : RemotePcsTemplate.row messages db (.ofRemotePc remotePc) =
      RemotePcsTemplate.row pages db (.ofRemotePc remotePc) ↔
      RemotePcsTemplate.registeredAt messages remotePc.assignedAt =
        RemotePcsTemplate.registeredAt pages remotePc.assignedAt := by
    simp only [RemotePcsTemplate.row, PageRow.mk.injEq, true_and, and_true]
    rfl
  rw [times]
  cases remotePc.assignedAt with
  | none => exact iff_of_true rfl fun date absent => absurd absent (Option.not_mem_none date)
  | some date =>
      exact ⟨fun alike _ same => Option.some.inj same ▸ alike, fun alike => alike date rfl⟩

/-- Where the page is told of the PC, its row is drawn anew in the format of the
messages. -/
theorem OpenPage.Follows.announced (follows : page.Follows remotePc)
    (present : new ∈ next.world.db.remotePc.rows)
    (rows : next.rows = onmessage page.rows (new.statusUpdate.data messages))
    (same : remotePc.SameIdentity new)
    (sameGroup : next.world.db.segment.findById new.group =
      page.world.db.segment.findById new.group) :
    next.Follows new ∧
      (next.Current pages new.id ↔ next.FormattedAlike messages pages new.id) := by
  obtain ⟨sameId, -, sameName, -, grouped⟩ := same
  obtain ⟨stored, ⟨listed, listedIn, listedId⟩, shown⟩ := follows
  have redrawn {row : PageRow} (rowIn : row ∈ page.rows) (own : row.id = remotePc.id) :
      row.onmessage (new.statusUpdate.data messages) =
        RemotePcsTemplate.row messages next.world.db (.ofRemotePc new) := by
    obtain ⟨dateFormat, told, -, rfl⟩ := shown row rowIn own
    apply onmessage_redraws sameId sameName
    change page.world.db.segment.findById remotePc.group = _
    rw [sameGroup, grouped]
  have kept : ∃ row ∈ next.rows, row.id = new.id := by
    rw [rows]
    exact ⟨_, mem_onmessage.mpr (Or.inr ⟨listed, listedIn, listedId.trans sameId, rfl⟩),
      (listed.onmessage_id _).trans (listedId.trans sameId)⟩
  have drawn : ∀ row ∈ next.rows, row.id = new.id →
      row = RemotePcsTemplate.row messages next.world.db (.ofRemotePc new) := by
    intro row rowIn rowId
    rw [rows] at rowIn
    rcases mem_onmessage.mp rowIn with ⟨-, other⟩ | ⟨old, oldIn, own, rfl⟩
    · exact (other rowId).elim
    · exact redrawn oldIn (own.trans sameId.symm)
  constructor
  · exact ⟨present, kept, fun row rowIn own =>
      ⟨messages, new.assignedAt, Or.inr rfl, drawn row rowIn own⟩⟩
  · rw [current_iff present, formattedAlike_iff present, ← row_eq_row_iff]
    obtain ⟨row, rowIn, own⟩ := kept
    constructor
    · exact fun current => (drawn row rowIn own).symm.trans (current.2 row rowIn own)
    · exact fun alike => ⟨⟨row, rowIn, own⟩, fun other otherIn otherOwn =>
        (drawn other otherIn otherOwn).trans alike⟩

end OneRow

/-- A stored PC that is there after an operation was there before and is changed
at most. -/
theorem changed_of_mem_step (stored : remotePc ∈ world.db.remotePc.rows)
    (present : new ∈ (step environment world operation).db.remotePc.rows)
    (sameId : remotePc.id = new.id) :
    new = remotePc ∨ remotePc.Change world.db operation new := by
  rcases mem_of_mem_step present with
    ⟨old, oldIn, oldId, change⟩ | ⟨repeaterId, name, accessPassword, group, fresh, later, rfl⟩
  · have same : old = remotePc := Table.eq_of_key_eq oldIn stored (oldId.trans sameId.symm)
    exact same ▸ change
  · have below := world.db.remotePc.keys_below remotePc stored
    rw [key_remotePc, sameId] at below
    exact (Int.not_le_of_gt below later).elim

/-- A release that takes the registration time away leaves the PC released. -/
theorem eq_disAssign_of_withdraws (stored : remotePc ∈ world.db.remotePc.rows)
    (present : new ∈ (step environment world operation).db.remotePc.rows)
    (sameId : remotePc.id = new.id) (withdraws : operation.Withdraws world.db new.id) :
    new = remotePc.disAssign ∧ remotePc.assignedAt ≠ none := by
  cases operation with
  | disAssignRemotePc reconnectId =>
      obtain ⟨released, found, releasedId, assigned⟩ := withdraws
      have same : released = remotePc :=
        Table.eq_of_key_eq (Database.findByReconnectId_eq_ok_some found).1 stored
          (releasedId.trans sameId.symm)
      subst same
      obtain ⟨after, performed, rows⟩ := @perform_disAssign environment world _ _ found
      rw [step, performed] at present
      change new ∈ after.rows at present
      rw [rows] at present
      rcases Table.mem_replace.mp present with ⟨-, other⟩ | ⟨rfl, -⟩
      · exact (other sameId.symm).elim
      · exact ⟨rfl, assigned⟩
  | _ => exact withdraws.elim

/-- Other changes than these two are not shown. -/
theorem RemotePc.Change.unshown {db : Database} (change : remotePc.Change db operation new)
    (unannounced : ¬ operation.Announces remotePc.repeaterId)
    (kept : ¬ operation.Withdraws db remotePc.id) :
    new.status = remotePc.status ∧ new.assignedAt = remotePc.assignedAt := by
  cases change with
  | connected inGroup found free given answered =>
      refine ⟨?_, RemotePcApiService.connected_assignedAt remotePc⟩
      unfold RemotePcApiService.connected
      split <;> rfl
  | released found =>
      by_cases assigned : remotePc.assignedAt = none
      · exact ⟨rfl, assigned.symm⟩
      · exact (kept ⟨remotePc, found, rfl, assigned⟩).elim
  | signalled signals => exact (unannounced ⟨_, signals⟩).elim

/-- A line with an event is no release. -/
theorem Operation.Announces.not_withdraws {repeaterId : Long} {db : Database}
    (announces : operation.Announces repeaterId) : ¬ operation.Withdraws db id := by
  intro withdraws
  cases operation with
  | processMessage now message => exact withdraws
  | _ => exact announces

/-- A line has an event of one repeaterId. -/
theorem Operation.Announces.unique {repeaterId other : Long}
    (announces : operation.Announces repeaterId) (again : operation.Announces other) :
    repeaterId = other := by
  cases operation with
  | processMessage now message =>
      obtain ⟨_, signals⟩ := announces
      obtain ⟨_, signalsAgain⟩ := again
      exact Signals.repeaterId_eq signals signalsAgain
  | _ => exact announces.elim

/-- What an operation does to the row of a PC on the page. -/
theorem OpenPage.Follows.step (reached : Application.Reachable environment page.world)
    (follows : page.Follows remotePc)
    (present : new ∈ (page.step messages environment operation).world.db.remotePc.rows)
    (sameId : remotePc.id = new.id) :
    (page.step messages environment operation).Follows new ∧
      (operation.Announces remotePc.repeaterId →
        ((page.step messages environment operation).Current pages new.id ↔
          (page.step messages environment operation).FormattedAlike messages pages new.id)) ∧
      (operation.Withdraws page.world.db new.id →
        ¬ (page.step messages environment operation).Current pages new.id) ∧
      (¬ operation.Announces remotePc.repeaterId → ¬ operation.Withdraws page.world.db new.id →
        ((page.step messages environment operation).Current pages new.id ↔
            page.Current pages new.id) ∧
          ((page.step messages environment operation).FormattedAlike messages pages new.id ↔
            page.FormattedAlike messages pages new.id)) := by
  have change := changed_of_mem_step follows.stored present sameId
  have same : remotePc.SameIdentity new := by
    rcases change with rfl | change
    · exact ⟨rfl, rfl, rfl, rfl, rfl⟩
    · exact change.sameIdentity
  have sameGroup : (page.step messages environment operation).world.db.segment.findById
      new.group = page.world.db.segment.findById new.group :=
    group_findById_step reached present
      (same.2.2.2.2 ▸ reached.intact.referring.pcGroups remotePc follows.stored)
  rcases sent_cases environment page.world operation with
    ⟨silent, quiet⟩ | ⟨now, evNum, told, toldIn, announces, sent, after⟩
  · have rows : (page.step messages environment operation).rows = page.rows := by
      rw [OpenPage.step, silent]
      rfl
    have unannounced := quiet remotePc follows.stored
    by_cases withdraws : operation.Withdraws page.world.db new.id
    · obtain ⟨rfl, assigned⟩ := eq_disAssign_of_withdraws follows.stored present sameId withdraws
      obtain ⟨followed, stale⟩ := follows.withdrawn present rows assigned sameGroup
      exact ⟨followed, fun announces => (unannounced announces).elim, fun _ => stale,
        fun _ kept => (kept withdraws).elim⟩
    · have unshown : new.status = remotePc.status ∧ new.assignedAt = remotePc.assignedAt := by
        rcases change with rfl | change
        · exact ⟨rfl, rfl⟩
        · exact change.unshown unannounced (sameId ▸ withdraws)
      obtain ⟨followed, current⟩ := follows.unchanged present (fun row _ => by rw [rows]) same
        unshown.1 unshown.2 sameGroup
      exact ⟨followed, fun announces => (unannounced announces).elim,
        fun withdrawn => (withdraws withdrawn).elim, fun _ _ => current⟩
  · have unwithdrawn : ¬ operation.Withdraws page.world.db new.id := announces.not_withdraws
    have rows : (page.step messages environment operation).rows =
        onmessage page.rows ((afterEvent now evNum told).statusUpdate.data messages) := by
      rw [OpenPage.step, sent]
      rfl
    change new ∈ (Application.step environment page.world operation).db.remotePc.rows at present
    have moved := after ▸ present
    rcases Table.mem_replace.mp moved with ⟨old, other⟩ | ⟨rfl, -⟩
    · have isOld : new = remotePc := Table.eq_of_key_eq old follows.stored sameId.symm
      subst isOld
      have unannounced : ¬ operation.Announces new.repeaterId := by
        intro announced
        have clash := clash_remotePc.mpr (announced.unique announces)
        have sameRow : new.id = told.id :=
          congrArg RemotePc.id (Table.eq_of_clash old toldIn clash)
        exact other sameRow
      obtain ⟨followed, current⟩ := follows.unchanged present
        (fun row own => by rw [rows, mem_onmessage_of_ne (own.trans_ne other)]) same rfl rfl
        sameGroup
      exact ⟨followed, fun announced => (unannounced announced).elim,
        fun withdrawn => (unwithdrawn withdrawn).elim, fun _ _ => current⟩
    · have isTold : told = remotePc := Table.eq_of_key_eq toldIn follows.stored sameId.symm
      subst isTold
      obtain ⟨followed, current⟩ := follows.announced present rows same sameGroup
      exact ⟨followed, fun _ => current, fun withdrawn => (unwithdrawn withdrawn).elim,
        fun unannounced => (unannounced announces).elim⟩

/-! ### Runs -/

/-- A PC that is stored before a run and after it is stored all along. -/
theorem stored_along (stored : remotePc ∈ world.db.remotePc.rows)
    (kept : ∃ new ∈ (run (step environment) world (operation :: operations)).db.remotePc.rows,
      new.id = remotePc.id) :
    ∃ new ∈ (step environment world operation).db.remotePc.rows, new.id = remotePc.id := by
  obtain ⟨last, lastIn, lastId⟩ := kept
  rw [run_cons] at lastIn
  rcases origin_of_mem_run lastIn with ⟨new, present, same⟩ | later
  · exact ⟨new, present, same.1.trans lastId⟩
  · have below := world.db.remotePc.keys_below remotePc stored
    rw [key_remotePc, ← lastId] at below
    exact (Int.not_le_of_gt below (Int.le_trans nextKey_le_step later)).elim

/-- Events and releases act on the row of a PC that is not deleted. -/
theorem OpenPage.Follows.along (reached : Application.Reachable environment page.world)
    (follows : page.Follows remotePc)
    (kept : ∃ new ∈ (run (Application.step environment) page.world operations).db.remotePc.rows,
      new.id = remotePc.id) :
    Along (OpenPage.step messages environment)
      (fun page operation =>
        (operation.Announces remotePc.repeaterId →
          ((page.step messages environment operation).Current pages remotePc.id ↔
            (page.step messages environment operation).FormattedAlike messages pages
              remotePc.id)) ∧
        (operation.Withdraws page.world.db remotePc.id →
          ¬ (page.step messages environment operation).Current pages remotePc.id) ∧
        (¬ operation.Announces remotePc.repeaterId →
          ¬ operation.Withdraws page.world.db remotePc.id →
          ((page.step messages environment operation).Current pages remotePc.id ↔
              page.Current pages remotePc.id) ∧
            ((page.step messages environment operation).FormattedAlike messages pages
                remotePc.id ↔
              page.FormattedAlike messages pages remotePc.id))) page operations := by
  induction operations generalizing page remotePc with
  | nil => trivial
  | cons operation rest ih =>
      obtain ⟨new, present, newId⟩ := stored_along follows.stored kept
      obtain ⟨followed, acts⟩ := follows.step reached present newId.symm
      have same : remotePc.SameIdentity new :=
        @sameIdentity_of_run environment page.world [operation] _ _ follows.stored present
          newId.symm
      rw [newId] at acts
      have later := @ih (page.step messages environment operation) new
        (reached.run [operation]) followed (newId ▸ kept)
      rw [newId, ← same.2.1] at later
      exact ⟨acts, later⟩

/-- A page that was just loaded follows every PC it lists, and is current. -/
theorem OpenPage.follows_load {user : User} {selectedGroupName : Option String}
    {groups : List Group} {remotePcs : List ResponseRemotePcDto}
    (shown : showRemotePcs world.db user selectedGroupName = .ok (.remotePcs groups remotePcs))
    (stored : remotePc ∈ world.db.remotePc.rows) (listed : .ofRemotePc remotePc ∈ remotePcs) :
    (OpenPage.load pages world remotePcs).Follows remotePc ∧
      (OpenPage.load pages world remotePcs).Current pages remotePc.id := by
  have kept : ∃ row ∈ (OpenPage.load pages world remotePcs).rows, row.id = remotePc.id :=
    ⟨_, List.mem_map_of_mem listed, rfl⟩
  have current : ∀ row ∈ (OpenPage.load pages world remotePcs).rows, row.id = remotePc.id →
      row = RemotePcsTemplate.row pages world.db (.ofRemotePc remotePc) := by
    intro row rowIn own
    obtain ⟨response, responseIn, rfl⟩ := List.mem_map.mp rowIn
    obtain ⟨other, otherIn, rfl⟩ := mem_showRemotePcs shown responseIn
    have same : other = remotePc := Table.eq_of_key_eq otherIn stored own
    rw [same]
  exact ⟨⟨stored, kept, fun row rowIn own => ⟨pages, remotePc.assignedAt, Or.inr rfl,
    current row rowIn own⟩⟩, (OpenPage.current_iff stored).mpr ⟨kept, current⟩⟩

/-- What the pattern makes of the first minute of 2024. -/
def newYear : DateFormat where
  format _ := "2024-01-01 00:00"
  length_format _ := by decide

/-- The base PC is assigned, and the administrator is in its group. -/
def watchedBase : World :=
  run (step .dev) (initial .dev)
    (nameAndConnect ++ [.assignGroup { selectedGroupId := some 1, selectedUserId := some 1 }])

theorem watchedBase_shown :
    showRemotePcs watchedBase.db adminUser none =
      .ok (.remotePcs [{ id := 1, groupName := some "BaseGroup" }] [.ofRemotePc namedBasePc]) := by
  decide +kernel

theorem namedBasePc_mem_watchedBase : namedBasePc ∈ watchedBase.db.remotePc.rows := by
  decide +kernel

end MegaVnc
