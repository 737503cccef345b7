import DeviceUpdate.Proofs.Session.Entry
import DeviceUpdate.Proofs.Threads

/-!
# How a call goes on

`Goes` lists every way that a call goes on by itself, with the world and the status that it comes
to, and `goes_of_move` says that the list is complete. What a call does to the controller, the
files and the streams is read off this list.
-/

namespace DeviceUpdate.Session

/-- A call that has an engine to start does not go on by itself. -/
lemma result?_starting {setup : Setup} {w : World} {g stream : Nat} {target : Target}
    {request : StreamRequest} :
    ((Point.starting g target stream request).move setup w).result? = none := by
  simp [Point.move]

/-- A call that has a reboot to schedule does not go on by itself. -/
lemma result?_scheduling {setup : Setup} {w : World} {plan : RebootPlan} :
    ((Point.scheduling plan).move setup w).result? = none := by
  simp [Point.move]

/-- A procedure within a call, and where the call stands during the procedure. -/
inductive Wraps : {α : Type} → (Procedure α → Point) → Prop
  | choosing {g : Nat} {target : Target} {file : String} {size : Nat} :
      Wraps (.choosing g target file size)
  | preparing {g : Nat} {target : Target} : Wraps (.preparing g target)
  | installing {g : Nat} {target : Target} {package : String} :
      Wraps (.installing g target package)
  | withdrawing {package : String} : Wraps (.withdrawing package)
  | swapping : Wraps .swapping
  | planning : Wraps .planning
  | asking : Wraps .asking

/-- The call goes on from a point in the world `w`, to a world and a status. -/
inductive Goes (setup : Setup) (w : World) : Point → World → Status → Prop
  | request {number size : Nat} {file : String} {v : World} {st : Status}
      (h : RequestStep setup w number file size v st) :
      Goes setup w (.entry (.request number file size)) v st
  | data {number offset : Nat} {chunk : Bytes} {last : Bool} {v : World} {st : Status}
      (h : DataStep w number offset chunk last v st) :
      Goes setup w (.entry (.data number offset chunk last)) v st
  | cancel {number : Nat} {reason : CancelReason} {v : World} {st : Status}
      (h : CancelStep w number v st) : Goes setup w (.entry (.cancel number reason)) v st
  | reset {number : Nat} {version : Version} {v : World} {st : Status}
      (h : ResetStep setup w number v st) : Goes setup w (.entry (.reset number version)) v st
  | bootLayout : Goes setup w (.entry .bootLayout) w (.running (.asking Procedure.bootLayout))
  /-- a procedure goes on -/
  | inside {α : Type} {wrap : Procedure α → Point} {rest rest' : Procedure α} {shared : Shared}
      (wraps : Wraps wrap) (h : rest.move w.shared = .step shared rest') :
      Goes setup w (wrap rest) { w with shared } (.running (wrap rest'))
  | chosenDual {g size : Nat} {target : Target} {file : String} :
      Goes setup w (.choosing g target file size (.done .dual)) w
        (.running (.preparing g target (StreamPreparation.ofConfig setup.config).prepare))
  | chosen {g size : Nat} {target : Target} {file : String} {layout : BootLayout}
      (other : layout ≠ .dual) :
      Goes setup w (.choosing g target file size (.done layout)) w
        (.running (.checkingSpace g target file size))
  | prepared {g : Nat} {target : Target} {request : StreamRequest} :
      Goes setup w (.preparing g target (.done (.ok request)))
        { w with streams := w.streams.push {} }
        (.running (.starting g target w.streams.size request))
  | unprepared {g : Nat} {target : Target} {e : UpdateError} :
      Goes setup w (.preparing g target (.done (.error e))) w
        (.running (.setupFailed g e.requestCode))
  | spaceShort {g size : Nat} {target : Target} {file : String} (e : UpdateError)
      (short : Space.ensure w.files setup.config.downloadDirectory size = .error e) :
      Goes setup w (.checkingSpace g target file size) w (.running (.setupFailed g e.requestCode))
  | spaceFound {g size : Nat} {target : Target} {file : String} (free : Nat)
      (fits : Space.ensure w.files setup.config.downloadDirectory size = .ok free) :
      Goes setup w (.checkingSpace g target file size) w
        (.running (.creating g target (Path.join setup.config.downloadDirectory file)))
  | notCreated {g : Nat} {target : Target} {path : String} (e : FileError)
      (fails : w.files.create path = .error e) :
      Goes setup w (.creating g target path) w
        (.running (.setupFailed g (UpdateError.file path e).requestCode))
  | created {g : Nat} {target : Target} {path : String} {handle : Handle} {files : FileSystem}
      (create : w.files.create path = .ok (handle, files)) :
      Goes setup w (.creating g target path) (w.setFiles files)
        (.running (.settling g target (.staged path (some handle))))
  | setupFailed {g : Nat} {code : RequestCode} :
      Goes setup w (.setupFailed g code)
        { w with controller := w.controller.releaseIfCurrent g }
        (.returned (.request (.error code)))
  | settled {g : Nat} {target : Target} {delivery : Delivery} (owner : w.controller.owns g) :
      Goes setup w (.settling g target delivery)
        { w with controller := { w.controller with active := some ⟨target, 0, delivery⟩ } }
        (.returned (.request (.ok ())))
  | lost {g : Nat} {target : Target} {delivery : Delivery} (lost : w.controller.owns g = false) :
      Goes setup w (.settling g target delivery) w
        (.running (.discarding g delivery (.request (.error .encounteredError))))
  | discardedFile {g : Nat} {path : String} {file : Option Handle} {reply : Reply} :
      Goes setup w (.discarding g (.staged path file) reply)
        (w.setFiles (w.files.removeIfPossible path)) (.running (.releasing g reply))
  | discardedStream {g stream : Nat} {reply : Reply} :
      Goes setup w (.discarding g (.streaming stream) reply) w
        (.running (.stopping stream .abort (some g) reply))
  | stops {stream : Nat} {rest rest' : Stream.Point} {slot : Slot} {release : Option Nat}
      {reply : Reply} (h : rest.move (w.slot stream) = .step slot rest') :
      Goes setup w (.stopping stream rest release reply) (w.setSlot stream slot)
        (.running (.stopping stream rest' release reply))
  | stoppedOwn {stream g : Nat} {rest : Stream.Point} {slot : Slot} {reply : Reply}
      {r : Stream.Reply} (h : rest.move (w.slot stream) = .reply slot r) :
      Goes setup w (.stopping stream rest (some g) reply) (w.setSlot stream slot)
        (.running (.releasing g reply))
  | stopped {stream : Nat} {rest : Stream.Point} {slot : Slot} {reply : Reply}
      {r : Stream.Reply} (h : rest.move (w.slot stream) = .reply slot r) :
      Goes setup w (.stopping stream rest none reply) (w.setSlot stream slot) (.returned reply)
  | released {g : Nat} {reply : Reply} :
      Goes setup w (.releasing g reply)
        { w with controller := w.controller.releaseIfCurrent g } (.returned reply)
  | pushes {g stream : Nat} {target : Target} {last : Bool} {rest rest' : Stream.Point}
      {slot : Slot} (h : rest.move (w.slot stream) = .step slot rest') :
      Goes setup w (.pushing g target stream last rest) (w.setSlot stream slot)
        (.running (.pushing g target stream last rest'))
  | pushedFinal {g stream : Nat} {target : Target} {rest : Stream.Point} {slot : Slot}
      {r : Stream.Reply} (h : rest.move (w.slot stream) = .reply slot r) :
      Goes setup w (.pushing g target stream true rest) (w.setSlot stream slot)
        (.running (.judging g target stream (pushResult r)))
  | pushed {g stream : Nat} {target : Target} {rest : Stream.Point} {slot : Slot}
      {r : Stream.Reply} (h : rest.move (w.slot stream) = .reply slot r)
      (fine : pushResult r = .ok ()) :
      Goes setup w (.pushing g target stream false rest) (w.setSlot stream slot)
        (.returned (.data (.ok ())))
  | notPushed {g stream : Nat} {target : Target} {rest : Stream.Point} {slot : Slot}
      {r : Stream.Reply} (e : UpdateError) (h : rest.move (w.slot stream) = .reply slot r)
      (fails : pushResult r = .error e) :
      Goes setup w (.pushing g target stream false rest) (w.setSlot stream slot)
        (.running (.pushFailed g e.dataCode))
  | pushFailed {g : Nat} {code : DataCode} :
      Goes setup w (.pushFailed g code)
        { w with
          controller := if w.controller.owns g then w.controller.release else w.controller }
        (.returned (.data (.error code)))
  | judged {g stream : Nat} {target : Target} {result : Except UpdateError Unit} :
      Goes setup w (.judging g target stream result) w
        (.running (.concluding g
          ⟨target, .streaming, result.isOk && (w.slot stream).succeeded⟩ (codeOf result)
          (.refuse .invalidData)))
  | assembled {g : Nat} {target : Target} {manifest : String}
      {result : Except UpdateError String} {files : FileSystem}
      (assembles : setup.assemble w.files manifest = (result, files)) :
      Goes setup w (.assembling g target manifest) (w.setFiles files)
        (.running (.removingManifest g target manifest result))
  | manifestRemoved {g : Nat} {target : Target} {manifest package : String} :
      Goes setup w (.removingManifest g target manifest (.ok package))
        (w.setFiles (w.files.removeIfPossible manifest)) (.running (.checking g target package))
  | notAssembled {g : Nat} {target : Target} {manifest : String} {e : UpdateError} :
      Goes setup w (.removingManifest g target manifest (.error e))
        (w.setFiles (w.files.removeIfPossible manifest))
        (.running (.concluding g (stagedOutcome target false) (.error e.dataCode)
          (.refuse e.dataCode)))
  | handed {g : Nat} {target : Target} {package : String} (owner : w.controller.owns g) :
      Goes setup w (.checking g target package)
        { w with controller := { w.controller with state := .installing } }
        (.running (.installing g target package (Install.dispatch setup.recovery package)))
  | unwanted {g : Nat} {target : Target} {package : String}
      (lost : w.controller.owns g = false) :
      Goes setup w (.checking g target package) w (.running (.dropping g target package))
  | dropped {g : Nat} {target : Target} {package : String} :
      Goes setup w (.dropping g target package) (w.setFiles (w.files.removeIfPossible package))
        (.running (.concluding g (stagedOutcome target false) (.error .invalidData)
          (.refuse .invalidData)))
  | installDone {g : Nat} {target : Target} {package : String}
      {result : Except UpdateError BootLayout} :
      Goes setup w (.installing g target package (.done result)) w
        (.running (.installed g target package result))
  | kept {g : Nat} {target : Target} {package : String} :
      Goes setup w (.installed g target package (.ok .single)) w
        (.running (.concluding g (stagedOutcome target true) (.ok ()) (.withdraw package)))
  | used {g : Nat} {target : Target} {package : String} {result : Except UpdateError BootLayout}
      (other : result ≠ .ok .single) :
      Goes setup w (.installed g target package result)
        (w.setFiles (w.files.removeIfPossible package))
        (.running (.concluding g (stagedOutcome target result.isOk) (codeOf result)
          (.refuse .invalidData)))
  | recorded {g : Nat} {outcome : UpdateOutcome} {result : Except DataCode Unit}
      {otherwise : Otherwise} (current : (w.controller.conclude g outcome).1) :
      Goes setup w (.concluding g outcome result otherwise)
        { w with controller := (w.controller.conclude g outcome).2 } (.returned (.data result))
  | givenUp {g : Nat} {outcome : UpdateOutcome} {result : Except DataCode Unit} {code : DataCode}
      (lost : (w.controller.conclude g outcome).1 = false) :
      Goes setup w (.concluding g outcome result (.refuse code))
        { w with controller := (w.controller.conclude g outcome).2 }
        (.returned (.data (.error code)))
  | takenBack {g : Nat} {outcome : UpdateOutcome} {result : Except DataCode Unit}
      {package : String} (lost : (w.controller.conclude g outcome).1 = false) :
      Goes setup w (.concluding g outcome result (.withdraw package))
        { w with controller := (w.controller.conclude g outcome).2 }
        (.running (.withdrawing package (Install.withdraw setup.recovery)))
  | withdrawn {package : String} {result : Except UpdateError Unit} :
      Goes setup w (.withdrawing package (.done result)) w
        (.running (.removing package (.data (.error .invalidData))))
  | removed {path : String} {reply : Reply} :
      Goes setup w (.removing path reply) (w.setFiles (w.files.removeIfPossible path))
        (.returned reply)
  | swapped :
      Goes setup w (.swapping (.done (.ok ()))) w (.running (.planning Procedure.bootLayout))
  | notSwapped {e : UpdateError} :
      Goes setup w (.swapping (.done (.error e))) w (.running (.resetting false))
  | planned {layout : BootLayout} {plan : RebootPlan}
      (possible : RebootPlan.ofLayout? layout = some plan) :
      Goes setup w (.planning (.done layout)) w (.running (.scheduling plan))
  | notPlanned {layout : BootLayout} (impossible : RebootPlan.ofLayout? layout = none) :
      Goes setup w (.planning (.done layout)) w (.running (.resetting false))
  | resetDone {scheduled : Bool} :
      Goes setup w (.resetting scheduled)
        { w with
          controller := { w.controller with state := if scheduled then .rebooting else .idle } }
        (.returned (.reset { rebootScheduled := scheduled }))
  | asked {layout : BootLayout} :
      Goes setup w (.asking (.done layout)) w (.returned (.bootLayout layout))

variable {setup : Setup} {w w' : World} {st : Status}

/-- A procedure within a call goes on, or is over. -/
lemma goes_of_advance {α : Type} {rest : Procedure α} {wrap : Procedure α → Point}
    {finish : α → Point} (wraps : Wraps wrap)
    (done : ∀ a, rest = .done a → Goes setup w (wrap (.done a)) w (.running (finish a)))
    (h : (advance w rest wrap finish).result? = some (w', st)) :
    Goes setup w (wrap rest) w' st := by
  unfold advance at h
  split at h
  case h_1 a hm =>
    obtain ⟨rfl, rfl⟩ := by simpa using h
    cases rest with
    | done b =>
      obtain rfl : b = a := by simpa [Procedure.move] using hm
      exact done b rfl
    | perform e next => simp [Procedure.move] at hm
    | files change next => simp [Procedure.move] at hm
    | classify next =>
      simp only [Procedure.move] at hm
      split at hm
      · simp at hm
      · split at hm <;> simp at hm
    | settle layout next => simp [Procedure.move] at hm
  case h_2 shared rest' hm =>
    obtain ⟨rfl, rfl⟩ := by simpa using h
    exact .inside wraps hm
  case h_3 => simp at h
  case h_4 => simp at h

/-- A call on a stream within a call goes on, or is over. -/
lemma advanceStream_result? {n : Nat} {rest : Stream.Point} {wrap : Stream.Point → Point}
    {finish : World → Stream.Reply → Move}
    (h : (advanceStream w n rest wrap finish).result? = some (w', st)) :
    (∃ slot rest', rest.move (w.slot n) = .step slot rest' ∧ w' = w.setSlot n slot ∧
        st = .running (wrap rest')) ∨
      ∃ slot r, rest.move (w.slot n) = .reply slot r ∧
        (finish (w.setSlot n slot) r).result? = some (w', st) := by
  unfold advanceStream at h
  split at h
  case h_1 slot r hm => exact .inr ⟨slot, r, hm, h⟩
  case h_2 slot rest' hm =>
    obtain ⟨rfl, rfl⟩ := by simpa using h
    exact .inl ⟨slot, rest', hm, rfl, rfl⟩
  case h_3 => simp at h
  case h_4 => simp at h

/-! ### The list is complete

One lemma for each point at which a call can go on in several ways, by what it is about. -/

section
variable {g stream size : Nat} {target : Target} {file path manifest package : String}
  {reply : Reply}

/-- The first move of a call. -/
lemma goes_of_entry {call : Call}
    (h : ((Point.entry call).move setup w).result? = some (w', st)) :
    Goes setup w (.entry call) w' st := by
  cases call with
  | request number file size => exact .request (requestStep_of_result h)
  | data number offset chunk last => exact .data (dataStep_of_result h)
  | cancel number reason => exact .cancel (cancelStep_of_result h)
  | reset number version => exact .reset (resetStep_of_result h)
  | bootLayout =>
    obtain ⟨rfl, rfl⟩ := by simpa [Point.move] using h
    exact .bootLayout

/-! #### The setup of an update -/

lemma goes_of_choosing {rest : Procedure BootLayout}
    (h : ((Point.choosing g target file size rest).move setup w).result? = some (w', st)) :
    Goes setup w (.choosing g target file size rest) w' st := by
  refine goes_of_advance .choosing (fun layout _ => ?_) h
  split
  · rename_i hdual
    subst hdual
    exact .chosenDual
  · rename_i hother
    exact .chosen hother

lemma goes_of_preparing {rest : Procedure (Except UpdateError StreamRequest)}
    (h : ((Point.preparing g target rest).move setup w).result? = some (w', st)) :
    Goes setup w (.preparing g target rest) w' st := by
  simp only [Point.move] at h
  split at h
  · obtain ⟨rfl, rfl⟩ := by simpa using h
    exact .prepared
  · rename_i hother
    refine goes_of_advance .preparing (fun result hdone => ?_) h
    cases result with
    | error e => exact .unprepared
    | ok request => exact absurd hdone (hother request)

lemma goes_of_checkingSpace
    (h : ((Point.checkingSpace g target file size).move setup w).result? = some (w', st)) :
    Goes setup w (.checkingSpace g target file size) w' st := by
  obtain ⟨rfl, rfl⟩ := by simpa [Point.move] using h
  split
  · rename_i e hshort
    exact .spaceShort e hshort
  · rename_i free hfits
    exact .spaceFound free hfits

lemma goes_of_creating
    (h : ((Point.creating g target path).move setup w).result? = some (w', st)) :
    Goes setup w (.creating g target path) w' st := by
  simp only [Point.move] at h
  split at h
  · rename_i e hfails
    obtain ⟨rfl, rfl⟩ := by simpa using h
    exact .notCreated e hfails
  · rename_i handle files hcreate
    obtain ⟨rfl, rfl⟩ := by simpa using h
    exact .created hcreate

lemma goes_of_settling {delivery : Delivery}
    (h : ((Point.settling g target delivery).move setup w).result? = some (w', st)) :
    Goes setup w (.settling g target delivery) w' st := by
  simp only [Point.move] at h
  split at h
  · rename_i howner
    obtain ⟨rfl, rfl⟩ := by simpa using h
    exact .settled howner
  · rename_i howner
    obtain ⟨rfl, rfl⟩ := by simpa using h
    exact .lost (by simpa using howner)

/-! #### Streams -/

lemma goes_of_discarding {delivery : Delivery}
    (h : ((Point.discarding g delivery reply).move setup w).result? = some (w', st)) :
    Goes setup w (.discarding g delivery reply) w' st := by
  cases delivery with
  | staged path file =>
    obtain ⟨rfl, rfl⟩ := by simpa [Point.move] using h
    exact .discardedFile
  | streaming n =>
    obtain ⟨rfl, rfl⟩ := by simpa [Point.move] using h
    exact .discardedStream

lemma goes_of_stopping {rest : Stream.Point} {release : Option Nat}
    (h : ((Point.stopping stream rest release reply).move setup w).result? = some (w', st)) :
    Goes setup w (.stopping stream rest release reply) w' st := by
  simp only [Point.move] at h
  obtain ⟨slot, rest', hm, rfl, rfl⟩ | ⟨slot, r, hm, hr⟩ := advanceStream_result? h
  · exact .stops hm
  · cases release with
    | none =>
      obtain ⟨rfl, rfl⟩ := by simpa using hr
      exact .stopped hm
    | some g =>
      obtain ⟨rfl, rfl⟩ := by simpa using hr
      exact .stoppedOwn hm

lemma goes_of_pushing {last : Bool} {rest : Stream.Point}
    (h : ((Point.pushing g target stream last rest).move setup w).result? = some (w', st)) :
    Goes setup w (.pushing g target stream last rest) w' st := by
  simp only [Point.move] at h
  obtain ⟨slot, rest', hm, rfl, rfl⟩ | ⟨slot, r, hm, hr⟩ := advanceStream_result? h
  · exact .pushes hm
  · cases last with
    | true =>
      obtain ⟨rfl, rfl⟩ := by simpa using hr
      exact .pushedFinal hm
    | false =>
      simp only [Bool.false_eq_true, if_false] at hr
      split at hr
      · rename_i hfine
        obtain ⟨rfl, rfl⟩ := by simpa using hr
        exact .pushed hm hfine
      · rename_i e hfails
        obtain ⟨rfl, rfl⟩ := by simpa using hr
        exact .notPushed e hm hfails

/-! #### The package -/

lemma goes_of_assembling
    (h : ((Point.assembling g target manifest).move setup w).result? = some (w', st)) :
    Goes setup w (.assembling g target manifest) w' st := by
  simp only [Point.move] at h
  split at h
  · simp at h
  · obtain ⟨rfl, rfl⟩ := by simpa using h
    exact .assembled rfl

lemma goes_of_removingManifest {result : Except UpdateError String}
    (h : ((Point.removingManifest g target manifest result).move setup w).result? =
      some (w', st)) : Goes setup w (.removingManifest g target manifest result) w' st := by
  obtain ⟨rfl, rfl⟩ := by simpa [Point.move] using h
  cases result with
  | ok package => exact .manifestRemoved
  | error e => exact .notAssembled

lemma goes_of_checking
    (h : ((Point.checking g target package).move setup w).result? = some (w', st)) :
    Goes setup w (.checking g target package) w' st := by
  simp only [Point.move] at h
  split at h
  · rename_i howner
    obtain ⟨rfl, rfl⟩ := by simpa using h
    exact .handed howner
  · rename_i hlost
    obtain ⟨rfl, rfl⟩ := by simpa using h
    exact .unwanted (by simpa using hlost)

lemma goes_of_installed {result : Except UpdateError BootLayout}
    (h : ((Point.installed g target package result).move setup w).result? = some (w', st)) :
    Goes setup w (.installed g target package result) w' st := by
  simp only [Point.move] at h
  split at h
  · obtain ⟨rfl, rfl⟩ := by simpa using h
    exact .kept
  · rename_i hother
    obtain ⟨rfl, rfl⟩ := by simpa using h
    exact .used hother

lemma goes_of_concluding {outcome : UpdateOutcome} {result : Except DataCode Unit}
    {otherwise : Otherwise}
    (h : ((Point.concluding g outcome result otherwise).move setup w).result? = some (w', st)) :
    Goes setup w (.concluding g outcome result otherwise) w' st := by
  simp only [Point.move] at h
  split at h
  · rename_i hcurrent
    obtain ⟨rfl, rfl⟩ := by simpa using h
    exact .recorded hcurrent
  · rename_i hlost
    rw [Bool.not_eq_true] at hlost
    cases otherwise with
    | withdraw package =>
      obtain ⟨rfl, rfl⟩ := by simpa using h
      exact .takenBack hlost
    | refuse code =>
      obtain ⟨rfl, rfl⟩ := by simpa using h
      exact .givenUp hlost

/-! #### Resets and questions -/

lemma goes_of_swapping {rest : Procedure (Except UpdateError Unit)}
    (h : ((Point.swapping rest).move setup w).result? = some (w', st)) :
    Goes setup w (.swapping rest) w' st := by
  refine goes_of_advance .swapping (fun result _ => ?_) h
  cases result with
  | ok value => exact .swapped
  | error e => exact .notSwapped

lemma goes_of_planning {rest : Procedure BootLayout}
    (h : ((Point.planning rest).move setup w).result? = some (w', st)) :
    Goes setup w (.planning rest) w' st := by
  refine goes_of_advance .planning (fun layout _ => ?_) h
  split
  · rename_i plan hplan
    exact .planned hplan
  · rename_i hplan
    exact .notPlanned hplan

lemma goes_of_asking {rest : Procedure BootLayout}
    (h : ((Point.asking rest).move setup w).result? = some (w', st)) :
    Goes setup w (.asking rest) w' st := by
  simp only [Point.move] at h
  split at h
  · obtain ⟨rfl, rfl⟩ := by simpa using h
    exact .asked
  · rename_i hother
    exact goes_of_advance .asking (fun layout hdone => absurd hdone (hother layout)) h

end

/-- Every move of a call is in the list. -/
theorem goes_of_move {p : Point} (h : (p.move setup w).result? = some (w', st)) :
    Goes setup w p w' st := by
  -- a point from which there is one way only goes it here
  have hway {v : World} {next : Status} (move : (p.move setup w).result? = some (v, next))
      (goes : Goes setup w p v next) : Goes setup w p w' st := by
    obtain ⟨rfl, rfl⟩ := Prod.mk.inj (Option.some.inj (move.symm.trans h))
    exact goes
  cases p with
  | entry call => exact goes_of_entry h
  | choosing g target file size rest => exact goes_of_choosing h
  | preparing g target rest => exact goes_of_preparing h
  | starting g target n request => simp [result?_starting] at h
  | checkingSpace g target file size => exact goes_of_checkingSpace h
  | creating g target path => exact goes_of_creating h
  | setupFailed g code => exact hway rfl .setupFailed
  | settling g target delivery => exact goes_of_settling h
  | discarding g delivery reply => exact goes_of_discarding h
  | stopping n rest release reply => exact goes_of_stopping h
  | releasing g reply => exact hway rfl .released
  | pushing g target n last rest => exact goes_of_pushing h
  | pushFailed g code => exact hway rfl .pushFailed
  | judging g target n result => exact hway rfl .judged
  | assembling g target manifest => exact goes_of_assembling h
  | removingManifest g target manifest result => exact goes_of_removingManifest h
  | checking g target package => exact goes_of_checking h
  | dropping g target package => exact hway rfl .dropped
  | installing g target package rest =>
    exact goes_of_advance .installing (fun result _ => .installDone) h
  | installed g target package result => exact goes_of_installed h
  | concluding g outcome result otherwise => exact goes_of_concluding h
  | withdrawing package rest =>
    exact goes_of_advance .withdrawing (fun result _ => .withdrawn) h
  | removing path reply => exact hway rfl .removed
  | swapping rest => exact goes_of_swapping h
  | planning rest => exact goes_of_planning h
  | scheduling plan => simp [result?_scheduling] at h
  | resetting scheduled => exact hway rfl .resetDone
  | asking rest => exact goes_of_asking h

lemma Goes.dataStep {number offset : Nat} {chunk : Bytes} {last : Bool}
    (h : Goes setup w (.entry (.data number offset chunk last)) w' st) :
    DataStep w number offset chunk last w' st := by
  generalize hp : Point.entry (.data number offset chunk last) = p at h
  cases h with
  | data h =>
    cases hp
    exact h
  | inside wraps h => cases wraps <;> cases hp
  | _ => cases hp

/-- The event that a call logs when it goes on from a point in the world `w`. -/
inductive Tells (setup : Setup) (w : World) : Point → World → Status → Event → Prop
  | accepted {number size : Nat} {file : String} {target : Target} {p : Point}
      (known : Target.ofNumber? number = some target) (free : w.controller.accepts)
      (goes : p = .choosing (w.controller.generation + 1) target file size Procedure.bootLayout ∨
        p = .checkingSpace (w.controller.generation + 1) target file size) :
      Tells setup w (.entry (.request number file size))
        { w with controller := w.controller.startUpdate } (.running p)
        (.accepted (w.controller.generation + 1) target file)
  | opened {g : Nat} {target : Target} {delivery : Delivery} (owner : w.controller.owns g) :
      Tells setup w (.settling g target delivery)
        { w with controller := { w.controller with active := some ⟨target, 0, delivery⟩ } }
        (.returned (.request (.ok ()))) (.opened g delivery)
  | received {number offset : Nat} {chunk : Bytes} {last : Bool} {v : World} {st : Status}
      (h : DataStep w number offset chunk last v st)
      (fine : ∀ path reply, st ≠ .running (.removing path reply)) :
      Tells setup w (.entry (.data number offset chunk last)) v st
        (.received w.controller.generation chunk last)
  | writeFailed {number offset : Nat} {chunk : Bytes} {last : Bool} {u : ActiveUpdate}
      {path : String} {file : Option Handle} {files : FileSystem} (code : DataCode)
      (takes : Takes w.controller number offset u) (delivery : u.delivery = .staged path file) :
      Tells setup w (.entry (.data number offset chunk last))
        { w.setFiles files with controller := w.controller.release }
        (.running (.removing path (.data (.error code))))
        (.writeFailed w.controller.generation path)
  | cancelled {number : Nat} {reason : CancelReason} {v : World} {st : Status}
      (h : CancelStep w number v st) (now : v.controller.state = .cancelled)
      (before : w.controller.state ≠ .cancelled) :
      Tells setup w (.entry (.cancel number reason)) v st (.cancelled w.controller.generation)
  | assembled {g : Nat} {target : Target} {manifest package : String} {files : FileSystem}
      (assembles : setup.assemble w.files manifest = (.ok package, files)) :
      Tells setup w (.assembling g target manifest) (w.setFiles files)
        (.running (.removingManifest g target manifest (.ok package)))
        (.assembled g manifest package files)
  | handed {g : Nat} {target : Target} {package : String}
      {rest : Procedure (Except UpdateError BootLayout)} (owner : w.controller.owns g) :
      Tells setup w (.checking g target package)
        { w with controller := { w.controller with state := .installing } }
        (.running (.installing g target package rest))
        (.handed g package (w.files.read package))
  | installed {g : Nat} {target : Target} {package : String}
      {result : Except UpdateError BootLayout} :
      Tells setup w (.installing g target package (.done result)) w
        (.running (.installed g target package result)) (.installed g package result)
  | recorded {g : Nat} {outcome : UpdateOutcome} {result : Except DataCode Unit}
      {otherwise : Otherwise} (current : (w.controller.conclude g outcome).1) :
      Tells setup w (.concluding g outcome result otherwise)
        { w with controller := (w.controller.conclude g outcome).2 } (.returned (.data result))
        (.recorded g outcome)
  | withdrawn {g : Nat} {outcome : UpdateOutcome} {result : Except DataCode Unit}
      {package : String} {rest : Procedure (Except UpdateError Unit)}
      (lost : (w.controller.conclude g outcome).1 = false) :
      Tells setup w (.concluding g outcome result (.withdraw package))
        { w with controller := (w.controller.conclude g outcome).2 }
        (.running (.withdrawing package rest)) (.withdrawn g package)
  | consumed {number : Nat} {version : Version} {v : World} {p : Point}
      (h : ResetStep setup w number v (.running p)) :
      Tells setup w (.entry (.reset number version)) v (.running p)
        (.consumed w.controller.generation w.controller.outcome)
  | swapped {result : Except UpdateError Unit} {rest : Procedure BootLayout} :
      Tells setup w (.swapping (.done result)) w (.running (.planning rest)) .swapped

/-- A call that goes on logs what it did. -/
lemma Goes.tells {p : Point} {e : Event} (h : Goes setup w p w' st)
    (log : Event.of? w p w' st = some e) : Tells setup w p w' st e := by
  cases h with
  | request h =>
    cases h with
    | refused code => simp [Event.of?] at log
    | accepted known name free goes =>
      obtain rfl : _ = e := by simpa [Event.of?, known, Controller.startUpdate] using log
      exact .accepted known free (goes.imp_left And.right)
  | data h =>
    cases h with
    | refused code => simp [Event.of?] at log
    | failed code takes delivery kept =>
      obtain rfl : _ = e := by simpa [Event.of?] using log
      exact .writeFailed code takes delivery
    | written takes delivery write more =>
      obtain rfl : _ = e := by simpa [Event.of?] using log
      exact .received (.written takes delivery write more) (by simp)
    | finished takes delivery write final synced =>
      have hstep := DataStep.finished takes delivery write final synced
      generalize ActiveUpdate.target _ = target at log hstep ⊢
      cases target with
      | system =>
        obtain rfl : _ = e := by simpa [Event.of?] using log
        exact .received hstep (by simp)
      | manifest =>
        obtain rfl : _ = e := by simpa [Event.of?] using log
        exact .received hstep (by simp)
    | pushed takes delivery =>
      obtain rfl : _ = e := by simpa [Event.of?] using log
      exact .received (.pushed takes delivery) (by simp)
  | cancel h =>
    simp only [Event.of?] at log
    split at log
    · rename_i hstate
      obtain rfl : _ = e := by simpa using log
      exact .cancelled h hstate.1 hstate.2
    · simp at log
  | reset h =>
    cases h with
    | refused decision unscheduled => simp [Event.of?] at log
    | begun done path =>
      obtain rfl : _ = e := by simpa [Event.of?] using log
      exact .consumed (.begun done path)
  | inside wraps h => cases wraps <;> simp [Event.of?] at log
  | settled owner =>
    obtain rfl : _ = e := by simpa [Event.of?] using log
    exact .opened owner
  | @assembled g target manifest result files assembles =>
    cases result with
    | error e => simp [Event.of?] at log
    | ok package =>
      obtain rfl : _ = e := by simpa [Event.of?] using log
      exact .assembled assembles
  | handed owner =>
    obtain rfl : _ = e := by simpa [Event.of?] using log
    exact .handed owner
  | installDone =>
    obtain rfl : _ = e := by simpa [Event.of?] using log
    exact .installed
  | recorded current =>
    obtain rfl : _ = e := by simpa [Event.of?, current] using log
    exact .recorded current
  | givenUp lost => simp [Event.of?, lost] at log
  | takenBack lost =>
    obtain rfl : _ = e := by simpa [Event.of?] using log
    exact .withdrawn lost
  | swapped =>
    obtain rfl : _ = e := by simpa [Event.of?] using log
    exact .swapped
  | _ => simp [Event.of?] at log

/-- The effect that a call waits for at a point. -/
inductive Asks (w : World) : Point → Effect → Prop
  | inside {α : Type} {wrap : Procedure α → Point} {rest : Procedure α} {e : Effect}
      (wraps : Wraps wrap) (h : rest.move w.shared = .effect e) : Asks w (wrap rest) e
  | starting {g stream : Nat} {target : Target} {request : StreamRequest} :
      Asks w (.starting g target stream request) (.startEngine stream request)
  | stopping {stream : Nat} {rest : Stream.Point} {release : Option Nat} {reply : Reply} :
      Asks w (.stopping stream rest release reply) .postUpdate
  | pushing {g stream : Nat} {target : Target} {last : Bool} {rest : Stream.Point} :
      Asks w (.pushing g target stream last rest) .postUpdate
  | scheduling {plan : RebootPlan} : Asks w (.scheduling plan) (.restart plan)

lemma effect_of_advance {α : Type} {rest : Procedure α} {wrap : Procedure α → Point}
    {finish : α → Point} {e : Effect} (h : advance w rest wrap finish = .effect e) :
    rest.move w.shared = .effect e := by
  unfold advance at h
  split at h <;> simp_all

lemma effect_of_advanceStream {n : Nat} {rest : Stream.Point} {wrap : Stream.Point → Point}
    {finish : World → Stream.Reply → Move} {e : Effect}
    (answers : ∀ v r, finish v r ≠ .effect e) (h : advanceStream w n rest wrap finish = .effect e) :
    e = .postUpdate := by
  unfold advanceStream at h
  split at h
  · exact absurd h (answers _ _)
  · simp at h
  · simp at h
  · simpa [eq_comm] using h

lemma entry_ne_effect (call : Call) (e : Effect) :
    Point.move setup w (.entry call) ≠ .effect e := by
  intro h
  cases call with
  | request number file size =>
    simp only [Point.move, enterRequest] at h
    repeat' split at h
    all_goals simp at h
  | data number offset chunk last =>
    simp only [Point.move, enterData, writeChunk] at h
    repeat' split at h
    all_goals simp at h
  | cancel number reason =>
    simp only [Point.move, enterCancel] at h
    repeat' split at h
    all_goals simp at h
  | reset number version =>
    simp only [Point.move, enterReset] at h
    split at h <;> simp at h
  | bootLayout => simp [Point.move] at h

/-- Every effect that a call waits for is in the list. -/
theorem asks_of_move {p : Point} {e : Effect} (h : p.move setup w = .effect e) : Asks w p e := by
  cases p with
  | entry call => exact absurd h (entry_ne_effect call e)
  | choosing g target file size rest => exact .inside .choosing (effect_of_advance h)
  | preparing g target rest =>
    simp only [Point.move] at h
    split at h
    · simp at h
    · exact .inside .preparing (effect_of_advance h)
  | starting g target stream request =>
    obtain rfl : _ = e := by simpa [Point.move] using h
    exact .starting
  | creating g target path =>
    simp only [Point.move] at h
    split at h <;> simp at h
  | settling g target delivery =>
    simp only [Point.move] at h
    split at h <;> simp at h
  | discarding g delivery reply => cases delivery <;> simp [Point.move] at h
  | stopping stream rest release reply =>
    simp only [Point.move] at h
    have he : e = .postUpdate := by
      refine effect_of_advanceStream ?_ h
      intro v r
      cases release <;> simp
    subst he
    exact .stopping
  | pushing g target stream last rest =>
    simp only [Point.move] at h
    have he : e = .postUpdate := by
      refine effect_of_advanceStream ?_ h
      intro v r
      split
      · simp
      · split <;> simp
    subst he
    exact .pushing
  | assembling g target manifest =>
    simp only [Point.move] at h
    split at h <;> simp at h
  | checking g target package =>
    simp only [Point.move] at h
    split at h <;> simp at h
  | installing g target package rest => exact .inside .installing (effect_of_advance h)
  | installed g target package result =>
    simp only [Point.move] at h
    split at h <;> simp at h
  | concluding g outcome result otherwise =>
    simp only [Point.move] at h
    split at h
    · simp at h
    · split at h <;> simp at h
  | withdrawing package rest => exact .inside .withdrawing (effect_of_advance h)
  | swapping rest => exact .inside .swapping (effect_of_advance h)
  | planning rest => exact .inside .planning (effect_of_advance h)
  | scheduling plan =>
    obtain rfl : _ = e := by simpa [Point.move] using h
    exact .scheduling
  | asking rest =>
    simp only [Point.move] at h
    split at h
    · simp at h
    · exact .inside .asking (effect_of_advance h)
  | _ => simp [Point.move] at h

/-! ### Facts about all calls -/

section Threads

variable {σ : Type} {around : Surroundings σ} {s t : System σ}

lemma mem_moved {i k : Nat} {call : Call} {p : Point} {w : World} {st : Status} {e : Event} :
    (k, e) ∈ (s.moved i call p w st).history ↔
      (k = i ∧ Event.of? s.world p w st = some e) ∨ (k, e) ∈ s.history := by
  simp only [System.moved, List.mem_append, Option.mem_toList, Option.map_eq_some_iff,
    Prod.mk.injEq]
  constructor
  · rintro (⟨e', he, rfl, rfl⟩ | hold)
    · exact .inl ⟨rfl, he⟩
    · exact .inr hold
  · rintro (⟨rfl, he⟩ | hold)
    · exact .inl ⟨e, he, rfl, rfl⟩
    · exact .inr hold

/-- What the history tells of the call `i`, last first. -/
def System.told (s : System σ) (i : Nat) : List Event :=
  s.history.filterMap fun entry => if entry.1 = i then some entry.2 else none

lemma mem_told {i : Nat} {e : Event} : e ∈ s.told i ↔ (i, e) ∈ s.history := by
  simp only [System.told, List.mem_filterMap, Prod.exists]
  constructor
  · rintro ⟨k, f, hlogged, hf⟩
    split at hf
    · rename_i hk
      obtain rfl : k = i := hk
      obtain rfl := Option.some.inj hf
      exact hlogged
    · cases hf
  · exact fun h => ⟨i, e, h, if_pos rfl⟩

lemma told_moved {i j : Nat} {call : Call} {p : Point} {w : World} {st : Status} :
    (s.moved i call p w st).told j =
      (if i = j then (Event.of? s.world p w st).toList else []) ++ s.told j := by
  simp only [System.told, System.moved, List.filterMap_append]
  cases Event.of? s.world p w st <;> by_cases hij : i = j <;> simp [hij]

lemma told_answered {i j : Nat} {call : Call} {p : Point} {e : Effect} {a : Answer} {device : σ}
    {files : FileSystem} : (s.answered i call p e a device files).told j =
      (if i = j then [.performed e a] else []) ++ s.told j := by
  by_cases hij : i = j <;> simp [System.told, System.answered, hij]

/-- The call `i` logs this in a step. -/
inductive Logs (setup : Setup) (s t : System σ) (i : Nat) : Event → Prop
  | told {call : Call} {p : Point} {w : World} {st : Status} {e : Event}
      (here : s.threads[i]? = some ⟨call, .running p⟩) (goes : Goes setup s.world p w st)
      (tells : Tells setup s.world p w st e) (now : t = s.moved i call p w st) :
      Logs setup s t i e
  | performed {call : Call} {p : Point} {e : Effect} {a : Answer} {device : σ} {files : FileSystem}
      (here : s.threads[i]? = some ⟨call, .running p⟩) (asks : p.move setup s.world = .effect e)
      (now : t = s.answered i call p e a device files) : Logs setup s t i (.performed e a)

/-- What the history tells after a step was told before, or is logged in this step. -/
lemma Step.logs (step : Step setup around s t) {i : Nat} {e : Event} (logged : (i, e) ∈ t.history) :
    (i, e) ∈ s.history ∨ Logs setup s t i e := by
  cases step with
  | @move k call p w st here goes =>
    have hgoes := goes_of_move goes
    rcases mem_moved.mp logged with ⟨rfl, hnew⟩ | hold
    · exact .inr (.told here hgoes (hgoes.tells hnew) rfl)
    · exact .inl hold
  | @answer k call p f a device files here asks gets =>
    rcases List.mem_cons.mp logged with hnew | hold
    · obtain ⟨rfl, rfl⟩ := Prod.mk.inj hnew
      exact .inr (.performed here asks rfl)
    · exact .inl hold
  | _ => exact .inl logged

/-- The history tells only of calls that were made. -/
def System.Made (s : System σ) : Prop := ∀ k e, (k, e) ∈ s.history → k < s.threads.length

lemma Step.made (step : Step setup around s t) (h : s.Made) : t.Made := by
  intro k e he
  cases step with
  | @start call may =>
    have := h k e he
    simp only [System.start, List.length_append, List.length_singleton]
    omega
  | @move i call p w status here goes =>
    simp only [System.moved, List.length_set]
    rcases mem_moved.mp he with ⟨rfl, -⟩ | hold
    · exact (List.getElem?_eq_some_iff.mp here).1
    · exact h k e hold
  | @answer i call p f a device files here asks gets =>
    simp only [System.answered, List.length_set]
    rcases List.mem_cons.mp he with hnew | hold
    · obtain ⟨rfl, -⟩ := Prod.mk.inj hnew
      exact (List.getElem?_eq_some_iff.mp here).1
    · exact h k e hold
  | wake here waits => simpa using h k e he
  | engine goes => exact h k e he
  | drift goes => exact h k e he

/-- A call that was made stays the same call. -/
lemma Step.same_call (step : Step setup around s t) {i : Nat} {call : Call} {st : Status}
    (here : s.threads[i]? = some ⟨call, st⟩) : ∃ st', t.threads[i]? = some ⟨call, st'⟩ := by
  have hset {k : Nat} {old new : Thread} (hk : s.threads[k]? = some old)
      (same : new.call = old.call) :
      ∃ st', (s.threads.set k new)[i]? = some ⟨call, st'⟩ := by
    by_cases hki : k = i
    · subst hki
      obtain rfl := Option.some.inj (hk.symm.trans here)
      have hcall : new.call = call := same
      exact ⟨new.status, by rw [getElem?_set_here here, ← hcall]⟩
    · exact ⟨st, by rw [List.getElem?_set_ne hki, here]⟩
  cases step with
  | start may =>
    exact ⟨st, by
      rw [System.start, List.getElem?_append_left (List.getElem?_eq_some_iff.mp here).1, here]⟩
  | move hk goes => exact hset hk rfl
  | answer hk asks gets => exact hset hk rfl
  | wake hk waits => exact hset hk rfl
  | engine goes => exact ⟨st, here⟩
  | drift goes => exact ⟨st, here⟩

/-- A step that leaves the controller alone and tells nothing about an update. -/
structure Quiet (around : Surroundings σ) (s t : System σ) : Prop where
  controller : t.world.controller = s.world.controller
  history : t.history = s.history ∨ ∃ i f a, t.history = (i, .performed f a) :: s.history
  files : t.world.files = s.world.files ∨
    (∃ e a, around.answers e s.device s.world.files a t.device t.world.files) ∨
    around.drifts s.device s.world.files t.device t.world.files

/-- A call goes on by itself, or nothing happens to the updates. -/
lemma Step.quiet_or_goes (step : Step setup around s t) : Quiet around s t ∨
    ∃ i call p w st, s.threads[i]? = some ⟨call, .running p⟩ ∧ Goes setup s.world p w st ∧
      t = s.moved i call p w st := by
  cases step with
  | start may => exact .inl ⟨rfl, .inl rfl, .inl rfl⟩
  | @move i call p w status here goes =>
    exact .inr ⟨i, call, p, w, status, here, goes_of_move goes, rfl⟩
  | @answer i call p e a device files here asks gets =>
    exact .inl ⟨rfl, .inr ⟨i, e, a, rfl⟩, .inr (.inl ⟨e, a, gets⟩)⟩
  | wake here waits => exact .inl ⟨rfl, .inl rfl, .inl rfl⟩
  | engine goes => exact .inl ⟨rfl, .inl rfl, .inl rfl⟩
  | drift goes => exact .inl ⟨rfl, .inl rfl, .inr (.inr goes)⟩

lemma Quiet.mem (h : Quiet around s t) {k : Nat} {e : Event} (he : (k, e) ∈ t.history) :
    (k, e) ∈ s.history ∨ ∃ f a, e = .performed f a := by
  rcases h.history with hsame | ⟨i, f, a, hnew⟩
  · exact .inl (hsame ▸ he)
  · rw [hnew] at he
    rcases List.mem_cons.mp he with heq | hold
    · exact .inr ⟨f, a, (Prod.mk.inj heq).2⟩
    · exact .inl hold

/-- A step in which the call `i` does not go on by itself. -/
inductive Beside (setup : Setup) (around : Surroundings σ) (s : System σ) (i : Nat) :
    System σ → Prop
  | quiet {t : System σ} (h : Quiet around s t) : Beside setup around s i t
  | other {j : Nat} {call : Call} {p : Point} {w : World} {st : Status} (ne : j ≠ i)
      (here : s.threads[j]? = some ⟨call, .running p⟩) (goes : Goes setup s.world p w st) :
      Beside setup around s i (s.moved j call p w st)

/-- Then it tells nothing of an update either. -/
lemma Beside.silent {i : Nat} (h : Beside setup around s i t) (e : Event)
    (he : (i, e) ∈ t.history) : (i, e) ∈ s.history ∨ ∃ f a, e = .performed f a := by
  cases h with
  | quiet h => exact h.mem he
  | other ne here goes =>
    rcases mem_moved.mp he with ⟨heq, -⟩ | hold
    · exact absurd heq.symm ne
    · exact .inl hold

/-- The call `i` goes on by itself from `p`, which takes the system to `t`. -/
def System.Moves (setup : Setup) (s t : System σ) (i : Nat) (call : Call) (p : Point) : Prop :=
  s.threads[i]? = some ⟨call, .running p⟩ ∧
    ∃ w st, (p.move setup s.world).result? = some (w, st) ∧ t = s.moved i call p w st

/-- What holds of every call. -/
def System.Each (s : System σ) (P : Nat → Call → Status → Prop) : Prop :=
  ∀ i call st, s.threads[i]? = some ⟨call, st⟩ → P i call st

/-- In the beginning there is no call. -/
lemma System.each_fresh (w : World) (d : σ) {P : Nat → Call → Status → Prop} :
    (System.fresh w d).Each P := by
  intro i call st hi
  cases hi

/-- A fact about all calls is kept when one of them changes, if it stays with the others and holds
of the one. -/
lemma System.Each.set {P Q : Nat → Call → Status → Prop} {i : Nat} {old new : Thread} {w : World}
    {d : σ} {history : List (Nat × Event)} (h : s.Each P) (here : s.threads[i]? = some old)
    (others : ∀ j call st, j ≠ i → s.threads[j]? = some ⟨call, st⟩ → P j call st → Q j call st)
    (this : Q i new.call new.status) :
    System.Each ⟨w, s.threads.set i new, d, history⟩ Q := by
  intro j call st hj
  rcases getElem?_set_cases hj with ⟨rfl, rfl⟩ | ⟨hne, hold⟩
  · exact this
  · exact others j call st hne hold (h j call st hold)

/-- It is kept when a call is made, if it stays with the others and holds of a new call. -/
lemma System.Each.start {P Q : Nat → Call → Status → Prop} {call : Call} (h : s.Each P)
    (others : ∀ j call st, s.threads[j]? = some ⟨call, st⟩ → P j call st → Q j call st)
    (this : Q s.threads.length call (.running (.entry call))) : (s.start call).Each Q := by
  intro j call' st hj
  rcases getElem?_concat_cases hj with ⟨rfl, heq⟩ | ⟨-, hold⟩
  · obtain ⟨rfl, rfl⟩ := Thread.mk.inj heq
    exact this
  · exact others j call' st hold (h j call' st hold)

/-- A fact about all calls is kept by a step if it holds of a call that begins, is kept by the call
that goes on, gets an answer or waits, and stays with the others. -/
lemma System.Each.step {P Q : Nat → Call → Status → Prop} (h : s.Each P)
    (step : Step setup around s t)
    (stays : ∀ i call st, s.threads[i]? = some ⟨call, st⟩ → Beside setup around s i t →
      t.told i = s.told i → P i call st → Q i call st)
    (start : ∀ call, t = s.start call → Q s.threads.length call (.running (.entry call)))
    (goes : ∀ i call p w st, s.threads[i]? = some ⟨call, .running p⟩ →
      Goes setup s.world p w st → t = s.moved i call p w st → P i call (.running p) → Q i call st)
    (answer : ∀ i call p e a device files, s.threads[i]? = some ⟨call, .running p⟩ →
      p.move setup s.world = .effect e → around.answers e s.device s.world.files a device files →
        t = s.answered i call p e a device files → P i call (.running p) →
          Q i call (.running (p.resume a)))
    (wake : ∀ i call p, s.threads[i]? = some ⟨call, .running p⟩ →
      t = { s with threads := s.threads.set i ⟨call, .running p.wake⟩ } →
        P i call (.running p) → Q i call (.running p.wake)) : t.Each Q := by
  cases step with
  | @start call may =>
    exact h.start (fun j call' st there hp =>
      stays j call' st there (.quiet ⟨rfl, .inl rfl, .inl rfl⟩) rfl hp) (start call rfl)
  | @move i call p w st here hgoes =>
    have hgoes := goes_of_move hgoes
    exact h.set here (fun j call' st' hji there hp =>
      stays j call' st' there (.other (Ne.symm hji) here hgoes)
        (by simp [told_moved, Ne.symm hji]) hp)
      (goes i call p w st here hgoes rfl (h i call _ here))
  | @answer i call p e a device files here asks gets =>
    exact h.set here (fun j call' st hji there hp =>
      stays j call' st there (.quiet ⟨rfl, .inr ⟨i, e, a, rfl⟩, .inr (.inl ⟨e, a, gets⟩)⟩)
        (by simp [told_answered, Ne.symm hji]) hp)
      (answer i call p e a device files here asks gets rfl (h i call _ here))
  | @wake i call p here waits =>
    exact h.set here (fun j call' st _ there hp =>
      stays j call' st there (.quiet ⟨rfl, .inl rfl, .inl rfl⟩) rfl hp)
      (wake i call p here rfl (h i call _ here))
  | engine hgoes =>
    exact fun j call st hj => stays j call st hj (.quiet ⟨rfl, .inl rfl, .inl rfl⟩) rfl
      (h j call st hj)
  | drift hgoes =>
    exact fun j call st hj => stays j call st hj (.quiet ⟨rfl, .inl rfl, .inr (.inr hgoes)⟩) rfl
      (h j call st hj)

/-- What holds of every call under way. -/
def System.All (s : System σ) (P : Nat → Call → Point → Prop) : Prop :=
  ∀ i call p, s.threads[i]? = some ⟨call, .running p⟩ → P i call p

lemma System.all_iff_each {P : Nat → Call → Point → Prop} :
    s.All P ↔ s.Each fun i call st => ∀ p, st = .running p → P i call p := by
  constructor
  · rintro h i call st hi p rfl
    exact h i call p hi
  · intro h i call p hi
    exact h i call _ hi p rfl

/-- In the beginning no call is under way. -/
lemma System.all_fresh (w : World) (d : σ) {P : Nat → Call → Point → Prop} :
    (System.fresh w d).All P :=
  System.all_iff_each.mpr (System.each_fresh w d)

/-- A fact about all calls under way is kept when one of them changes, if it stays with the others
and holds of the one. -/
lemma System.All.set {P Q : Nat → Call → Point → Prop} {i : Nat} {old new : Thread} {w : World}
    {d : σ} {history : List (Nat × Event)} (h : s.All P) (here : s.threads[i]? = some old)
    (others : ∀ j call p, j ≠ i → s.threads[j]? = some ⟨call, .running p⟩ → P j call p →
      Q j call p)
    (this : ∀ p, new.status = .running p → Q i new.call p) :
    System.All ⟨w, s.threads.set i new, d, history⟩ Q := by
  refine System.all_iff_each.mpr ((System.all_iff_each.mp h).set here ?_ this)
  rintro j call st hji there hp p rfl
  exact others j call p hji there (hp p rfl)

/-- It is kept when a call is made, if it stays with the others and holds of a new call. -/
lemma System.All.start {P Q : Nat → Call → Point → Prop} {call : Call} (h : s.All P)
    (others : ∀ j call p, s.threads[j]? = some ⟨call, .running p⟩ → P j call p → Q j call p)
    (this : Q s.threads.length call (.entry call)) : (s.start call).All Q := by
  refine System.all_iff_each.mpr ((System.all_iff_each.mp h).start ?_ ?_)
  · rintro j call' st hj hp p rfl
    exact others j call' p hj (hp p rfl)
  · rintro p ⟨⟩
    exact this

/-- A fact about all calls under way is kept by a step if it holds of a call that begins, is kept
by the call that goes on, and stays with the others. -/
lemma System.All.step {P Q : Nat → Call → Point → Prop} (h : s.All P)
    (step : Step setup around s t)
    (stays : ∀ i call p, s.threads[i]? = some ⟨call, .running p⟩ → Beside setup around s i t →
      P i call p → Q i call p)
    (start : ∀ call, t = s.start call → Q s.threads.length call (.entry call))
    (goes : ∀ i call p w p', s.threads[i]? = some ⟨call, .running p⟩ →
      Goes setup s.world p w (.running p') → t = s.moved i call p w (.running p') →
        P i call p → Q i call p')
    (resume : ∀ i call p a, Q i call p → Q i call (p.resume a))
    (wake : ∀ i call p, Q i call p → Q i call p.wake) : t.All Q := by
  refine System.all_iff_each.mpr ((System.all_iff_each.mp h).step step ?_ ?_ ?_ ?_ ?_)
  · rintro i call st here beside - hp p rfl
    exact stays i call p here beside (hp p rfl)
  · rintro call heq p hp
    obtain rfl := Status.running.inj hp
    exact start call heq
  · rintro i call p w st here hgoes heq hp p' rfl
    exact goes i call p w p' here hgoes heq (hp p rfl)
  · rintro i call p e a device files here asks gets rfl hp p' hp'
    obtain rfl := Status.running.inj hp'
    exact resume i call p a (stays i call p here
      (.quiet ⟨rfl, .inr ⟨i, e, a, rfl⟩, .inr (.inl ⟨e, a, gets⟩)⟩) (hp p rfl))
  · rintro i call p here rfl hp p' hp'
    obtain rfl := Status.running.inj hp'
    exact wake i call p (stays i call p here (.quiet ⟨rfl, .inl rfl, .inl rfl⟩) (hp p rfl))

end Threads

end DeviceUpdate.Session
