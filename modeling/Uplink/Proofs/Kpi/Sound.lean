import Uplink.Proofs.Session.Noted
/-!
A script without crashes.  What a receiver answers stands in its script, so no POST of a report
crashes unless the script says so, and a flush comes to an outcome.
-/
namespace Uplink

namespace Reply

def crashes : Reply → Bool
  | .crash _ => true
  | _ => false

end Reply

namespace Rule

/-- An answer stands in the rule, and the rule that is left says nothing else. -/
theorem answer_mem (r : Rule) :
    (r.answer.1 ∈ r.replies ∨ r.answer.1 = .status ⟨200⟩ 0) ∧ r.answer.2.replies ⊆ r.replies := by
  obtain ⟨pattern, replies⟩ := r
  match replies with
  | [] => exact ⟨.inr rfl, List.Subset.refl _⟩
  | [a] => exact ⟨.inl (List.mem_singleton.mpr rfl), List.Subset.refl _⟩
  | a :: b :: rest => exact ⟨.inl List.mem_cons_self, List.subset_cons_self a (b :: rest)⟩

end Rule

namespace Receiver

/-- Whether no answer of the script is a crash. -/
def Sound (r : Receiver) : Prop := ∀ rule ∈ r, ∀ reply ∈ rule.replies, reply.crashes = false

instance (r : Receiver) : Decidable r.Sound :=
  inferInstanceAs (Decidable (∀ rule ∈ r, ∀ reply ∈ rule.replies, reply.crashes = false))

theorem Sound.answer {r : Receiver} (h : r.Sound) (url : String) :
    (r.answer url).1.crashes = false ∧ Sound (r.answer url).2 := by
  induction r with
  | nil => exact ⟨rfl, h⟩
  | cons rule rest ih =>
    obtain ⟨hrule, hrest⟩ := List.forall_mem_cons.mp h
    unfold Receiver.answer
    split
    next =>
      obtain ⟨hreply, hleft⟩ := rule.answer_mem
      refine ⟨?_, List.forall_mem_cons.mpr ⟨fun reply hmem => hrule reply (hleft hmem), hrest⟩⟩
      rcases hreply with hmem | hok
      · exact hrule _ hmem
      · exact congrArg Reply.crashes hok
    next =>
      obtain ⟨hne, hsound⟩ := ih hrest
      exact ⟨hne, List.forall_mem_cons.mpr ⟨hrule, hsound⟩⟩

end Receiver

theorem Posting.outcome_ofReply {url : String} {now : Nat} {deadline : Duration} {reply : Reply}
    (h : reply.crashes = false) : (ofReply url now deadline reply).outcome ≠ .crashed := by
  unfold ofReply
  split
  next delay outcome ends =>
    obtain ⟨ends, -⟩ := Option.filter_eq_some_iff.mp ends
    cases reply with
    | status s _ =>
      cases ends
      show Outcome.ofStatus s ≠ .crashed
      unfold Outcome.ofStatus
      split <;> exact Outcome.noConfusion
    | broken reason _ =>
      cases ends
      exact Outcome.noConfusion
    | hang => cases ends
    | crash _ => cases h
  next => exact Outcome.noConfusion

namespace Pipeline

variable {quits : Prop} {t : Task} {p p' : Pipeline} {h h' : Hand} {hands : Task → Hand}

theorem receiver_leave (p : Pipeline) (t : Task) (e : Event) :
    (p.leave t e).receiver = p.receiver := by
  unfold leave
  dsimp only
  split <;> rfl

theorem Submits.receiver_eq {c : Call} {j : Job} {deadline : Duration}
    (hs : Submits t p c j deadline p') : p'.receiver = p.receiver := by
  cases hs with
  | submit url body deadline => exact receiver_startWorkers _ 0 0
  | push url r timeout hr => exact receiver_startWorkers _ 0 0

/-- A script without crashes stays one. -/
theorem Step.receiver_sound (hs : Step quits t p h p' h') (hp : p.receiver.Sound) :
    p'.receiver.Sound := by
  cases hs with
  | start workers capacity => rwa [receiver_startWorkers]
  | queue hs hd => exact (hs.receiver_eq ▸ hp :)
  | divert hs hd hq =>
    cases hq
    exact (hs.receiver_eq ▸ hp : Receiver.Sound _).answer _ |>.2
  | deliver due => rwa [deliver_eq]
  | direct url body deadline hq =>
    cases hq
    exact (hp.answer _).2
  | take idle hd hq =>
    cases hq
    exact (hp.answer _).2
  | skip turn hf => rwa [receiver_leave]
  | depart turn hf hq =>
    cases hq
    exact (hp.answer _).2
  | land due hf accepted => rwa [receiver_leave]
  | fail due hf => rwa [receiver_leave]
  | withdraw hh => exact (receiver_leave (p.dropTimers t) t _).symm ▸ hp
  | _ => exact hp

structure Sound (p : Pipeline) (hands : Task → Hand) : Prop where
  receiver : p.receiver.Sound
  postings : ∀ t q, hands t = .waiting (.flushing q) → q.outcome ≠ .crashed

theorem Sound.step (hs : Step quits t p (hands t) p' h') (hp : p.Sound hands) :
    p'.Sound (Function.update hands t h') := by
  refine ⟨hs.receiver_sound hp.receiver, fun u q hu => ?_⟩
  by_cases hut : u = t
  · subst hut
    rw [Function.update_self] at hu
    generalize hh : hands u = h at hs
    subst hu
    cases hs with
    | depart turn hf hq =>
      cases hq
      exact Posting.outcome_ofReply (hp.receiver.answer _).1
    | wake v => exact hp.postings .operator q hh
    | _ => exact hp.postings u q hh
  · rw [Function.update_of_ne hut] at hu
    exact hp.postings u q hu

theorem invariant_sound : Invariant Sound :=
  .of_timeless (fun hs hp => hp.step hs) fun _ _ _ _ _ hp => ⟨hp.receiver, hp.postings⟩

/-! ### Outcomes of flushes -/

theorem land_result (p : Pipeline) (t : Task) (q : Posting) :
    (∃ o, (p.land t q).2 = .flushed o) ∨ q.outcome = .crashed := by
  unfold land
  split
  · exact .inl ⟨_, rfl⟩
  · split
    · exact .inl ⟨_, rfl⟩
    · exact .inl ⟨_, rfl⟩
    next ho => exact .inr ho

/-- Once a departure is over, it came to an outcome unless its POST could crash. -/
theorem depart_flushed {crashes : Prop} (hp : p.receiver.Sound ∨ crashes) {url : String}
    {r : CallResult} (h : (p.depart t url).2 = .ended r) : (∃ o, r = .flushed o) ∨ crashes := by
  unfold depart at h
  split at h
  next => exact .inl ⟨.empty, by cases h; rfl⟩
  next f hf =>
    dsimp only at h
    split at h
    next =>
      cases h
      refine (land_result _ t _).imp id fun hcrash => ?_
      exact hp.resolve_left fun hp => Posting.outcome_ofReply (hp.answer url).1 hcrash
    next => exact Stage.noConfusion h

theorem flush_flushed {crashes : Prop} (hp : p.receiver.Sound ∨ crashes) {url : String}
    {r : CallResult} (h : (p.flush t url).2 = .ended r) : (∃ o, r = .flushed o) ∨ crashes := by
  unfold flush at h
  dsimp only at h
  split at h
  next => exact depart_flushed (by exact hp) h
  next => exact Stage.noConfusion h

/-- A flush that goes on comes to an outcome unless a POST could crash. -/
theorem proceed_flushed {crashes : Prop} (hp : p.Sound hands ∨ crashes) {stage : Stage}
    (hs : hands t = .waiting stage) (flushes : (hands t).flushes) {r : CallResult}
    (h : (p.proceed t stage).2 = .ended r) : (∃ o, r = .flushed o) ∨ crashes := by
  rw [hs] at flushes
  cases stage with
  | queueing url =>
    unfold proceed at h
    dsimp only at h
    split at h
    next => exact depart_flushed (hp.imp_left Sound.receiver) h
    next => exact Stage.noConfusion h
  | flushing q =>
    unfold proceed at h
    dsimp only at h
    split at h
    next =>
      cases h
      refine (land_result p t q).imp id fun hcrash => ?_
      exact hp.resolve_left fun hp => hp.postings t q hs hcrash
    next => exact Stage.noConfusion h
  | _ => simp [Hand.flushes, Hand.isFlushing] at flushes

end Pipeline

end Uplink
