import PeReview.Jobs.Answers
import PeReview.Service.Triples

/-!
# Transactions of a coroutine

What a worker knows after each of its transactions on the job store.
-/

namespace PeReview

open PeReview.Process

/-- What is raised by a coroutine whose only errors are those of the store. -/
def Knowledge.plainly (known : Knowledge) (error : PyError) : Knowledge :=
  known.given (error.isPlain = true)

namespace Site.Triple

variable {site : Site} {known : Knowledge}

/-- The rule of a transaction whose answer teaches nothing. -/
theorem acts {call : StoreCall} (about : call.job = site.id)
    (uncovered : known.covered = false)
    (permits : ∀ action ∈ call.action, known.Permits action) :
    site.Triple known (Task.store call) (fun _ => known.after call.action)
      (known.after call.action).plainly :=
  Runs.store about uncovered permits fun _ _ _ _ _ _ _ after => after

/-- The rule of a transaction that leaves the row alone. -/
theorem reads {call : StoreCall} (about : call.job = site.id)
    (uncovered : known.covered = false) (quiet : call.action = none) :
    site.Triple known (Task.store call) (fun _ => known) known.plainly := by
  have permits : ∀ action ∈ call.action, known.Permits action := by
    simp [quiet]
  have acted := acts about uncovered permits
  rw [quiet] at acted
  exact acted

theorem get (uncovered : known.covered = false) :
    site.Triple known (Task.store (.get site.id))
      (fun record =>
        (known.within fun state =>
          ∃ current, record = some current ∧ current.state = state).given
          (∀ current, record = some current → current.id = site.id))
      known.plainly := by
  refine Runs.store rfl uncovered (by simp [StoreCall.action]) ?_
  intro source target record _ _ ran _ after
  obtain ⟨same, answered⟩ := Prod.mk.inj (Except.ok.inj ran)
  refine { after with fact := ⟨after.fact, ?_⟩, states := ?_ }
  · intro current known
    exact Store.get_id (answered.trans known)
  · intro row found live
    refine ⟨after.states row found live, ?_⟩
    rw [World.row?, ← same] at found
    exact Store.get_answer answered found

theorem startAttempt {stage : AttemptStage} (uncovered : known.covered = false) :
    site.Triple known (Task.store (.startAttempt site.id stage))
      (fun attempt => known.given (attempt.job = site.id)) known.plainly := by
  refine Runs.store rfl uncovered (by simp [StoreCall.action]) ?_
  intro source target attempt _ _ ran _ after
  exact { after with fact := ⟨after.fact, Store.startAttempt_answer ran⟩ }

theorem transition {target : JobState} (uncovered : known.covered = false)
    (permits : known.Permits (.move target false)) :
    site.Triple known (Task.store (.transition site.id target false))
      (fun record =>
        { known with states := fun state => state = target, covered := false }.given
          (record.id = site.id ∧ record.state = target))
      (known.after (some (.move target false))).plainly := by
  refine Runs.store rfl uncovered ?_ ?_
  · rintro action ⟨⟩
    exact permits
  · intro source reached record _ _ ran _ after
    obtain ⟨about, state, row⟩ := Store.transition_answer ran
    exact
      { after with
        fact := ⟨after.fact, about, state⟩
        states := fun changed found _ => row changed found }

theorem loadReviewResult (uncovered : known.covered = false) :
    site.Triple known (Task.store (.loadReviewResult site.id))
      (fun result => known.within fun state =>
        result = none → state ≠ .readyToPublish ∧ state ≠ .publishing)
      known.plainly := by
  refine Runs.store rfl uncovered (by simp [StoreCall.action]) ?_
  intro source target result valid _ ran _ after
  obtain ⟨same, answered⟩ := Prod.mk.inj (Except.ok.inj ran)
  refine { after with states := ?_ }
  intro row found live
  refine ⟨after.states row found live, ?_⟩
  rintro rfl
  have found : source.row? site.id = some row := by
    rw [World.row?, same]
    exact found
  have absent := Store.loadReviewResult_answer answered found
  have kept := valid.consistent.valid site.id row found
  have resting : row.state ≠ .retryWait :=
    (Row.not_isTerminal_of_live kept live).2
  have reviewed := kept.reviewed
  rw [absent] at reviewed
  simp only [Row.phase, if_neg resting, Bool.false_eq_true] at reviewed
  exact ⟨fun ready => reviewed (.inl ready),
    fun publishing => reviewed (.inr (.inl publishing))⟩

theorem publicationForJob (uncovered : known.covered = false) :
    site.Triple known (Task.store (.publicationForJob site.id))
      (fun publication =>
        { known with
          payload := publication.map Publication.requestPayload
          status := some (publication.map Publication.status)
          unposted :=
            decide (publication.map Publication.status ≠ some .posted) })
      known.plainly := by
  refine Runs.store rfl uncovered (by simp [StoreCall.action]) ?_
  intro source target publication _ _ ran _ after
  obtain ⟨same, answered⟩ := Prod.mk.inj (Except.ok.inj ran)
  have status : ∀ row, target.row? site.id = some row →
      row.status = publication.map Publication.status := by
    intro row found
    rw [World.row?, ← same] at found
    rw [Row.status, Store.publicationForJob_answer answered found]
    cases publication <;> rfl
  refine { after with payload := ?_, status := ?_, unposted := ?_ }
  · intro input stored
    cases publication with
    | none => cases stored
    | some publication =>
        cases stored
        obtain ⟨row, found, entry⟩ := Store.publicationForJob_some answered
        refine ⟨row, by rw [World.row?, ← same]; exact found, ?_⟩
        simp [Row.payload, entry]
  · rintro _ ⟨⟩ _ row found _
    exact status row found
  · intro unposted row found _
    rw [status row found]
    simpa using unposted

theorem beginPublication {payload : ReviewInput} {fingerprints : List String}
    (uncovered : known.covered = false) :
    site.Triple known
      (Task.store (.beginPublication site.id payload fingerprints))
      (fun publication =>
        { known with
          payload := some publication.requestPayload
          status := some (some publication.status)
          unposted := decide (publication.status ≠ .posted) })
      ({ known with status := none }).plainly := by
  refine Runs.store rfl uncovered ?_ ?_
  · rintro action ⟨⟩
    exact True.intro
  · intro source target publication _ _ ran _ after
    obtain ⟨row, found, entry⟩ := Store.beginPublication_answer ran
    have found : target.row? site.id = some row := found
    have only : ∀ other, target.row? site.id = some other → other = row := by
      intro other foundOther
      rw [found] at foundOther
      exact (Option.some.inj foundOther).symm
    refine { after with payload := ?_, status := ?_, unposted := ?_ }
    · rintro _ ⟨⟩
      exact ⟨row, found, by simp [Row.payload, entry]⟩
    · rintro _ ⟨⟩ _ other foundOther _
      rw [only other foundOther, Row.status, entry]
      rfl
    · intro unposted other foundOther _
      rw [only other foundOther, Row.status, entry]
      simpa using unposted

theorem markPublicationAmbiguous {error : String}
    (uncovered : known.covered = false)
    (permits : known.Permits (.mark .ambiguous)) :
    site.Triple known (Task.store (.markPublicationAmbiguous site.id error))
      (fun _ => { known with status := some (some .ambiguous) })
      ({ known with status := none }).plainly := by
  refine Runs.store rfl uncovered ?_ ?_
  · rintro action ⟨⟩
    exact permits
  · intro source target value _ _ ran _ after
    refine { after with status := ?_ }
    rintro _ ⟨⟩ _ row found _
    exact Store.markPublicationAmbiguous_answer ran found

theorem refreshPublishGuard (uncovered : known.covered = false) :
    site.Triple known (Task.store (.refreshPublishGuard site.id))
      (fun status : PublishGuardStatus =>
        { known with covered := decide (status = .ok) })
      known.plainly := by
  refine Runs.store rfl uncovered ?_ ?_
  · rintro action ⟨⟩
    exact True.intro
  · intro source target (status : PublishGuardStatus) _ _ ran granted after
    refine { after with covered := ?_ }
    intro covered _
    obtain rfl : status = .ok := of_decide_eq_true covered
    have ran := Except.ok.inj ran
    obtain ⟨row, found, publishing, owned, expires⟩ :=
      Store.refreshPublishGuard_answer ran
    refine ⟨row, found, publishing, owned, _, expires, ?_⟩
    exact (granted rfl).le

theorem completePublicationAndMarkDone {response : Option GerritResponse}
    {deferDone : Bool} (uncovered : known.covered = false)
    (permits : known.Permits (.post deferDone)) :
    site.Triple known
      (Task.store
        (.completePublicationAndMarkDone site.id site.id response deferDone))
      (fun record =>
        (known.after (some (.post deferDone))).given (record.id = site.id))
      (known.after (some (.post deferDone))).plainly := by
  refine Runs.store rfl uncovered ?_ ?_
  · rintro action ⟨⟩
    exact permits
  · intro source target record _ _ ran _ after
    exact
      { after with
        fact := ⟨after.fact, Store.completePublicationAndMarkDone_answer ran⟩ }

end Site.Triple

end PeReview
