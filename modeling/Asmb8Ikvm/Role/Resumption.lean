import Asmb8Ikvm.Role.Account

/-!
# Resuming a run

What the state file is kept for: no run powers the machine a second time before the
first reset was seen to have come about, or an operator has asked for it. It holds
of every series of runs on a target, wherever they were interrupted and whatever
the modules answered, a save that fails included.
-/

namespace Asmb8Ikvm.Role

open Interaction

/-- How much is known of the last transition: nothing is due, its outcome is uncertain, or the
machine was seen on and that is not yet in the state file. -/
inductive Phase where
  | settled
  | outstanding
  | seen
deriving DecidableEq, Repr

def phase : List Event → Phase
  | [] => .settled
  | .began vars :: log => if vars.forceResume then .settled else phase log
  | .called .powerBoot _ :: _ => .outstanding
  | .called .info answer :: log =>
      if phase log = .outstanding ∧ isOn answer = true then .seen else phase log
  | .called (.saveState record) _ :: log =>
      if phase log = .seen ∧ record.resetConfirmed = true then .settled else phase log
  | .called _ _ :: log => phase log

/-- Every transition was called for when nothing was due. -/
def Supervised : List Event → Prop
  | [] => True
  | .called .powerBoot _ :: log => phase log = .settled ∧ Supervised log
  | _ :: log => Supervised log

/-- A transition that is not settled is in the state file. -/
structure Accounted (world : World) : Prop where
  supervised : Supervised world.log
  recorded : phase world.log ≠ .settled →
    ∃ record, world.file = some record ∧ record.uncertain = true

/-- What the run state says of the last transition. -/
structure Tracks (side : Side) (state : RunState) (world : World) : Prop where
  accounted : Accounted world
  settled : side ≠ .behind → phase world.log = .settled ∧ state.resetConfirmed = false
  armed : side = .behind → state.bootArmed = true
  unconfirmed : side = .behind → phase world.log = .outstanding → state.resetConfirmed = false

section Steps

variable {side : Side} {state : RunState} {world moved : World} {request : Call}

theorem Accounted.moves (accounted : Accounted world) (move : Others world moved) :
    Accounted moved := by
  rcases accounted with ⟨supervised, recorded⟩
  rw [← move.log] at supervised recorded
  rw [← move.file] at recorded
  exact ⟨supervised, recorded⟩

theorem tracks_before (notBehind : side ≠ .behind) (accounted : Accounted world)
    (settled : phase world.log = .settled) (unconfirmed : state.resetConfirmed = false) :
    Tracks side state world :=
  ⟨accounted, fun _ => ⟨settled, unconfirmed⟩, fun isBehind => absurd isBehind notBehind,
    fun isBehind => absurd isBehind notBehind⟩

theorem tracks_behind (accounted : Accounted world) (armed : state.bootArmed = true)
    (unconfirmed : phase world.log = .outstanding → state.resetConfirmed = false) :
    Tracks .behind state world :=
  ⟨accounted, fun notBehind => absurd rfl notBehind, fun _ => armed, fun _ => unconfirmed⟩

theorem Tracks.moves (tracks : Tracks side state world) (move : Others world moved) :
    Tracks side state moved := by
  rcases tracks with ⟨accounted, settled, armed, unconfirmed⟩
  rw [← move.log] at settled unconfirmed
  exact ⟨accounted.moves move, settled, armed, unconfirmed⟩

/-- The calls that say nothing of a transition. -/
def Call.Silent : Call → Prop
  | .powerBoot => False
  | .info => False
  | .saveState _ => False
  | _ => True

theorem phase_silent (silent : request.Silent) (answer : Answer request) (log : List Event) :
    phase (.called request answer :: log) = phase log := by
  cases request <;> first | rfl | exact silent.elim

theorem supervised_called (silent : request ≠ .powerBoot) (answer : Answer request)
    (log : List Event) : Supervised (.called request answer :: log) ↔ Supervised log := by
  cases request <;> first | rfl | exact absurd rfl silent

theorem fileAfter_eq (silent : request.Silent ∨ request = .info) :
    fileAfter world request = world.file := by
  rcases silent with silent | rfl
  · cases request <;> first | rfl | exact silent.elim
  · rfl

theorem Accounted.silent (accounted : Accounted world) (silent : request.Silent) :
    Accounted (perform request world).2 := by
  have notPower : request ≠ .powerBoot := by
    rintro rfl
    exact silent
  refine ⟨(supervised_called notPower _ _).mpr accounted.supervised, ?_⟩
  intro due
  rw [show phase (perform request world).2.log = phase world.log from phase_silent silent _ _]
    at due
  rw [show (perform request world).2.file = world.file from fileAfter_eq (.inl silent)]
  exact accounted.recorded due

theorem Tracks.silent (tracks : Tracks side state world) (silent : request.Silent) :
    Tracks side state (perform request world).2 := by
  have same : phase (perform request world).2.log = phase world.log := phase_silent silent _ _
  refine ⟨tracks.accounted.silent silent, ?_, tracks.armed, ?_⟩
  · rw [same]
    exact tracks.settled
  · rw [same]
    exact tracks.unconfirmed

theorem phase_info (answer : Except Failure Probe) (log : List Event) :
    phase (.called .info answer :: log) = phase log ∨
      phase log = .outstanding ∧ phase (.called .info answer :: log) = .seen := by
  rw [phase]
  split
  · next seen => exact .inr ⟨seen.1, rfl⟩
  · exact .inl rfl

theorem Tracks.info (tracks : Tracks side state world) :
    Tracks side state (perform .info world).2 := by
  have shows := phase_info (answerOf world .info) world.log
  change phase (perform .info world).2.log = _ ∨ _ ∧ phase (perform .info world).2.log = _ at shows
  refine ⟨⟨tracks.accounted.supervised, ?_⟩, ?_, tracks.armed, ?_⟩
  · intro due
    refine tracks.accounted.recorded ?_
    rcases shows with same | ⟨outstanding, _⟩
    · rwa [← same]
    · rw [outstanding]
      exact Phase.noConfusion
  · intro isBefore
    rcases tracks.settled isBefore with ⟨settled, notConfirmed⟩
    rcases shows with same | ⟨outstanding, _⟩
    · exact ⟨same.trans settled, notConfirmed⟩
    · rw [outstanding] at settled
      cases settled
  · intro isBehind due
    rcases shows with same | ⟨_, seen⟩
    · exact tracks.unconfirmed isBehind (same ▸ due)
    · rw [seen] at due
      cases due

theorem phase_save (record : RunState) (answer : Except Failure Unit) (log : List Event) :
    phase (.called (.saveState record) answer :: log) =
      if phase log = .seen ∧ record.resetConfirmed = true then .settled else phase log :=
  rfl

theorem fileAfter_save (world : World) (record : RunState) :
    fileAfter world (.saveState record) = some record ∨
      fileAfter world (.saveState record) = world.file := by
  dsimp only [fileAfter]
  split
  · exact .inl rfl
  · split
    · exact .inl rfl
    · exact .inr rfl

theorem Tracks.save (tracks : Tracks side state world) :
    Tracks side state (perform (.saveState state) world).2 := by
  have same := phase_save state (answerOf world (.saveState state)) world.log
  change phase (perform (.saveState state) world).2.log = _ at same
  refine ⟨⟨tracks.accounted.supervised, ?_⟩, ?_, tracks.armed, ?_⟩
  · intro due
    rw [same] at due
    split at due
    · exact absurd rfl due
    · next open' =>
        have notSettled : side = .behind := by
          by_contra notBehind
          exact due (tracks.settled notBehind).1
        have unconfirmed : state.resetConfirmed = false := by
          cases shown : phase world.log with
          | settled => exact absurd shown due
          | outstanding => exact tracks.unconfirmed notSettled shown
          | seen => exact Bool.not_eq_true _ ▸ fun confirmed => open' ⟨shown, confirmed⟩
        rcases fileAfter_save world state with written | kept
        · refine ⟨state, written, ?_⟩
          rw [RunState.uncertain, tracks.armed notSettled, unconfirmed]
          rfl
        · rcases tracks.accounted.recorded due with ⟨record, isFile, uncertain⟩
          exact ⟨record, kept.trans isFile, uncertain⟩
  · intro isBefore
    rcases tracks.settled isBefore with ⟨settled, unconfirmed⟩
    refine ⟨?_, unconfirmed⟩
    rw [same, if_neg (by rw [settled]; rintro ⟨contra, _⟩; cases contra), settled]
  · intro isBehind due
    rw [same] at due
    split at due
    · cases due
    · exact tracks.unconfirmed isBehind due

end Steps

section Rule

variable {vars : Vars}

theorem startingState_unconfirmed (prior : Option RunState) :
    (startingState prior).resetConfirmed = false := by
  dsimp only [startingState]
  split
  · rfl
  · next unconfirmed => exact Bool.eq_false_iff.mpr unconfirmed

/-- A reconciliation either starts with nothing uncertain or was asked for. -/
theorem reconcile_ok {prior : Option RunState} {state : RunState}
    (reconciled : reconcile vars prior = .ok state) :
    state.resetConfirmed = false ∧ state.sessionId = (startingState prior).sessionId ∧
      state.ipxeOriginSessionId = (startingState prior).ipxeOriginSessionId ∧
        ((startingState prior).uncertain = true → vars.forceResume = true) := by
  have unconfirmed := startingState_unconfirmed prior
  dsimp only [reconcile] at reconciled
  split at reconciled
  · split at reconciled
    · next forced =>
        cases reconciled
        exact ⟨unconfirmed, rfl, rfl, fun _ => forced⟩
    · cases reconciled
  · next certain =>
      cases reconciled
      exact ⟨unconfirmed, rfl, rfl, fun uncertain => absurd uncertain certain⟩

theorem startingState_of_uncertain {record : RunState} (uncertain : record.uncertain = true) :
    startingState (some record) = record := by
  have unconfirmed : ¬record.resetConfirmed = true := by
    intro confirmed
    rw [RunState.uncertain, confirmed, Bool.not_true, Bool.and_false] at uncertain
    cases uncertain
  exact if_neg unconfirmed

/-- Behind the reconciliation nothing is due. -/
theorem settled_of_reconcile {world : World} {state : RunState}
    {load : Answer .loadState} {dir : Answer .ensureStateDir} {earlier : List Event}
    (accounted : Accounted world)
    (isLog : world.log =
      .called .loadState load :: .called .ensureStateDir dir :: .began vars :: earlier)
    (reconciled : reconcile vars world.file = .ok state) : phase world.log = .settled := by
  have began : phase world.log = if vars.forceResume then .settled else phase earlier := by
    rw [isLog]
    rfl
  by_contra due
  rcases accounted.recorded due with ⟨record, isFile, uncertain⟩
  rw [isFile] at reconciled
  have forced := (reconcile_ok reconciled).2.2.2
  rw [startingState_of_uncertain uncertain] at forced
  rw [began, if_pos (forced uncertain)] at due
  exact due rfl

theorem tracks_account (vars : Vars) : Account vars Accounted Tracks where
  inv := Tracks.accounted
  moves := Tracks.moves
  agrees tracks agrees := ⟨tracks.accounted,
    fun isBefore => ⟨(tracks.settled isBefore).1,
      agrees.resetConfirmed.trans (tracks.settled isBefore).2⟩,
    fun isBehind => agrees.bootArmed.trans (tracks.armed isBehind),
    fun isBehind due => agrees.resetConfirmed.trans (tracks.unconfirmed isBehind due)⟩
  saves := Tracks.save
  idles {_ _ _ request} idle tracks := by
    cases request with
    | info => exact tracks.info
    | buildBootstrap originUrl => exact tracks.silent trivial
    | armBoot device uefi => exact tracks.silent trivial
    | waitFor timeout delay => exact tracks.silent trivial
    | postCode => exact tracks.silent trivial
    | _ => exact idle.elim
  claims tracks := by
    unfold claimSession
    split
    · exact tracks
    · exact ⟨tracks.accounted, tracks.settled, tracks.armed, tracks.unconfirmed⟩
  attaches _ tracks _ _ := tracks.silent trivial
  detaches tracks _ := tracks.silent trivial
  delivers tracks := by
    rcases tracks.settled Side.noConfusion with ⟨settled, unconfirmed⟩
    exact tracks_before Side.noConfusion tracks.accounted settled unconfirmed
  originStarts {state world _} tracks _ _ := by
    have called : Tracks .setup state (perform .startOrigin world).2 := tracks.silent trivial
    rcases called.settled Side.noConfusion with ⟨settled, unconfirmed⟩
    exact tracks_before Side.noConfusion called.accounted settled unconfirmed
  originFails {state world _} tracks _ := by
    have called : Tracks .setup state (perform .startOrigin world).2 := tracks.silent trivial
    rcases called.settled Side.noConfusion with ⟨settled, unconfirmed⟩
    exact tracks_before Side.noConfusion called.accounted settled unconfirmed
  originStops tracks := tracks.silent trivial
  arms tracks := by
    rcases tracks.settled Side.noConfusion with ⟨settled, unconfirmed⟩
    exact tracks_before Side.noConfusion tracks.accounted settled unconfirmed
  resets {state world} tracks isFile armed := by
    rcases tracks.settled Side.noConfusion with ⟨settled, unconfirmed⟩
    refine tracks_behind ⟨⟨settled, tracks.accounted.supervised⟩, ?_⟩ armed fun _ => unconfirmed
    intro _
    refine ⟨state, isFile, ?_⟩
    rw [RunState.uncertain, armed, unconfirmed]
    rfl
  confirms {state world answer earlier} tracks isLog seen := by
    refine tracks_behind tracks.accounted (tracks.armed rfl) ?_
    intro due
    rw [isLog, phase] at due
    split at due
    · cases due
    · next notSeen => exact absurd ⟨due, seen⟩ notSeen

theorem accounted_begins (vars : Vars) (world : World) (accounted : Accounted world) :
    Accounted (begins vars world) := by
  refine ⟨accounted.supervised, ?_⟩
  intro due
  refine accounted.recorded ?_
  intro settled
  refine due ?_
  change (if vars.forceResume = true then Phase.settled else phase world.log) = .settled
  rw [settled, ite_self]

theorem tracks_opening (vars : Vars) (world : World) :
    Opening vars Accounted Tracks (begins vars world) where
  moves := Accounted.moves
  ensures accounted := accounted.silent trivial
  loads accounted := accounted.silent trivial
  starts accounted _ isLog reconciled :=
    tracks_before Side.noConfusion accounted (settled_of_reconcile accounted isLog reconciled)
      (reconcile_ok reconciled).1

end Rule

/-- Among the events a run began that was told to resume. -/
def Acknowledged (events : List Event) : Prop :=
  ∃ vars, .began vars ∈ events ∧ vars.forceResume = true

/-- Among the events the machine was seen on, and later the confirmation was saved. A save
that fails counts as well: it may have replaced the file. -/
def Confirmed (events : List Event) : Prop :=
  ∃ front record saved middle answer back,
    events = front ++ .called (.saveState record) saved :: middle ++ .called .info answer :: back ∧
      record.resetConfirmed = true ∧ isOn answer = true

section Between

variable {log between earlier : List Event} {answer : Answer .powerBoot}

theorem exists_seen (isSeen : phase (between ++ .called .powerBoot answer :: earlier) = .seen) :
    ∃ front probed back, between = front ++ .called .info probed :: back ∧ isOn probed = true := by
  induction between with
  | nil => cases isSeen
  | cons event between ih =>
      have behind (later : phase (between ++ .called .powerBoot answer :: earlier) = .seen) :
          ∃ front probed back, event :: between = front ++ .called .info probed :: back ∧
            isOn probed = true := by
        rcases ih later with ⟨front, probed, back, split, seen⟩
        exact ⟨event :: front, probed, back, by rw [split]; rfl, seen⟩
      rw [List.cons_append] at isSeen
      cases event with
      | began vars =>
          rw [phase] at isSeen
          split at isSeen
          · cases isSeen
          · exact behind isSeen
      | called request answered =>
          cases request with
          | powerBoot => cases isSeen
          | info =>
              rw [phase] at isSeen
              split at isSeen
              · next seen => exact ⟨[], answered, between, rfl, seen.2⟩
              · exact behind isSeen
          | saveState record =>
              rw [phase_save] at isSeen
              split at isSeen
              · cases isSeen
              · exact behind isSeen
          | _ => exact behind isSeen

/-- Nothing is due behind a transition only if it was confirmed or a run was told to resume. -/
theorem acknowledged_or_confirmed
    (settled : phase (between ++ .called .powerBoot answer :: earlier) = .settled) :
    Acknowledged between ∨ Confirmed between := by
  induction between with
  | nil => cases settled
  | cons event between ih =>
      have behind (later : phase (between ++ .called .powerBoot answer :: earlier) = .settled) :
          Acknowledged (event :: between) ∨ Confirmed (event :: between) := by
        refine (ih later).imp ?_ ?_
        · rintro ⟨vars, mem, forced⟩
          exact ⟨vars, List.mem_cons_of_mem _ mem, forced⟩
        · rintro ⟨front, record, saved, middle, probed, back, split, rest⟩
          exact ⟨event :: front, record, saved, middle, probed, back, by rw [split]; rfl, rest⟩
      rw [List.cons_append] at settled
      cases event with
      | began vars =>
          rw [phase] at settled
          split at settled
          · next forced => exact .inl ⟨vars, List.mem_cons_self, forced⟩
          · exact behind settled
      | called request answered =>
          cases request with
          | powerBoot => cases settled
          | info =>
              rw [phase] at settled
              split at settled
              · cases settled
              · exact behind settled
          | saveState record =>
              rw [phase_save] at settled
              split at settled
              · next confirmed =>
                  rcases exists_seen confirmed.1 with ⟨middle, probed, back, split, seen⟩
                  exact .inr ⟨[], record, answered, middle, probed, back, by rw [split]; rfl,
                    confirmed.2, seen⟩
              · exact behind settled
          | _ => exact behind settled

theorem settled_of_supervised
    (supervised : Supervised (log ++ .called .powerBoot answer :: earlier)) :
    phase earlier = .settled := by
  induction log with
  | nil => exact supervised.1
  | cons event log ih =>
      cases event with
      | began vars => exact ih supervised
      | called request answered =>
          by_cases isPower : request = .powerBoot
          · subst isPower
            exact ih supervised.2
          · exact ih ((supervised_called isPower _ _).mp supervised)

end Between

/-- Between two transitions the first one was confirmed, or a run was told to resume. -/
theorem transitions_supervised {world : World} (history : RoleHistory world) :
    ∀ later second between first earlier, world.log = later ++ .called .powerBoot second ::
        (between ++ .called .powerBoot first :: earlier) →
      Acknowledged between ∨ Confirmed between := by
  intro later second between first earlier isLog
  have accounted : Accounted world := by
    refine account_invariant tracks_account tracks_opening accounted_begins ?_ history
    rintro start ⟨noFile, noLog⟩
    refine ⟨by rw [noLog]; trivial, ?_⟩
    intro due
    rw [noLog] at due
    exact absurd rfl due
  have supervised := accounted.supervised
  rw [isLog] at supervised
  exact acknowledged_or_confirmed (settled_of_supervised supervised)

theorem transitions_supervised_twice :
    let log := (once minimalVars (once minimalVars freshWorld)).log
    Acknowledged ((log.drop 7).take 16) ∨ Confirmed ((log.drop 7).take 16) :=
  let world := once minimalVars (once minimalVars freshWorld)
  @transitions_supervised world
    (history_once freshWorld_honest (history_once freshWorld_honest history_freshWorld))
    (world.log.take 6) (.ok ()) _ (.ok ()) (world.log.drop 24) rfl

end Asmb8Ikvm.Role
