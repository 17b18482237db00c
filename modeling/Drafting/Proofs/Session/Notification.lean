import Drafting.Proofs.Session.Reaction
import Drafting.Proofs.Session.WriteBack

/-! Who is told of what.

Every change of the constraints is announced to every listener, in the order of
registration, with the row of constraints behind that change
(`Session.calls_perform`). An operation that creates several constraints announces
the row as it grows (`stages`), which is read off the final row because constraints
come in at its end. Listeners have numbers that are given out in order and never
again, so there is one listener to a number (`Session.listening_perform`). -/
namespace Drafting

/-- The rows through which a row of `old` constraints grew by `count`, up to what it is now. -/
def stages (row : List Constraint) (old count : Nat) : List (List Constraint) :=
  (List.range' (old + 1) count).map row.take

theorem stages_one (row : List Constraint) (c : Constraint) : stages (row ++ [c]) row.length 1 = [row ++ [c]] := by
  simp [stages]

/-- What came in later does not show in the stages before. -/
theorem stages_append {row new : List Constraint} {old count : Nat} (h : old + count ≤ row.length) :
    stages (row ++ new) old count = stages row old count := by
  refine List.map_congr_left fun n hn => ?_
  have hle := List.mem_range'_1.mp hn
  rw [List.take_append_of_le_length (by omega)]

theorem stages_add (row : List Constraint) (old m n : Nat) :
    stages row old (m + n) = stages row old m ++ stages row (old + m) n := by
  rw [stages, ← List.range'_append_1, List.map_append, Nat.add_right_comm]
  rfl

/-- The listener that an operation registers under the next number. -/
def Operation.registered (next : Nat) : Operation → List Listener
  | .listen react => [⟨⟨next⟩, react⟩]
  | _ => []

/-- Whether the operation is to take off the listener with this number. -/
def Operation.dismisses : Operation → ListenerId → Bool
  | .unlisten id, id' => id' == id
  | _, _ => false

/-- The operation leaves the listeners to themselves. -/
def Operation.KeepsListeners : Operation → Prop
  | .listen _ | .unlisten _ => False
  | _ => True

/-- The number that an answer gives to a new listener. -/
def Answer.listeners : Answer → List ListenerId
  | .listening id => [id]
  | _ => []

namespace Session

/-! ### Announcements -/

/-- The rows of constraints that an operation on `s` announces, by its outcome. -/
def announced (s : Session) : Operation → Outcome Answer → List (List Constraint)
  | .create _, ⟨.created (.ok _), s', _⟩ => [s'.constraints]
  | .remove _, ⟨.found true, s', _⟩ => [s'.constraints]
  | .toggle _ _, ⟨.found true, s', _⟩ => [s'.constraints]
  | .solve, ⟨_, s', _⟩ => [s'.constraints]
  | .connectPairs _, ⟨.connected ids, s', _⟩ => stages s'.constraints s.constraints.length ids.length
  | _, _ => []

/-- The calls that announce rows to the listeners of a session. -/
def announcements (s : Session) (rows : List (List Constraint)) : List (ListenerId × List Constraint) :=
  rows.flatMap fun row => s.listeners.map fun l => (l.id, row)

theorem announcements_append (s : Session) (a b : List (List Constraint)) :
    s.announcements (a ++ b) = s.announcements a ++ s.announcements b := List.flatMap_append ..

theorem announcements_one (s : Session) (row : List Constraint) :
    s.announcements [row] = s.listeners.map fun l => (l.id, row) := by
  rw [announcements, List.flatMap_singleton]

section Calls
variable (observer : Observer) (now : Timestamp) (s : Session)

theorem calls_create (r : Request) :
    calls (s.create now r).effects =
      s.announcements (stages (s.create now r).session.constraints s.constraints.length
        (Answer.created (s.create now r).answer).issued.length) := by
  unfold create
  split
  · rfl
  · simp only [calls_logged, calls_notify, Answer.issued, List.length_singleton, stages_one, announcements_one]

theorem calls_connect (first second : EntityId) :
    calls (s.connect now first second).effects =
      s.announcements (stages (s.connect now first second).session.constraints s.constraints.length
        (s.connect now first second).answer.length) := by
  unfold connect
  split
  · split
    · rfl
    · rename_i kind _
      split
      · rfl
      · have hcreate := s.calls_create now
          { kind, entities := [first, second], priority := some .low, description := some kind.suggestionText }
        simp only
        split
        · rename_i hanswer
          rw [hanswer] at hcreate
          exact hcreate
        · rename_i hanswer
          rw [hanswer] at hcreate
          rw [calls_append, hcreate]
          rfl
  · rfl

/-- Listeners stay while constraints come in, and the stages of the whole are those of its parts. -/
theorem calls_connectAll (pairs : List (EntityId × EntityId)) :
    calls (s.connectAll now pairs).effects =
      s.announcements (stages (s.connectAll now pairs).session.constraints s.constraints.length
        (s.connectAll now pairs).answer.length) := by
  induction pairs generalizing s with
  | nil => rfl
  | cons pair rest ih =>
    have hone := s.grows_connect now pair.1 pair.2
    obtain ⟨new, hrow, _⟩ := ((s.connect now pair.1 pair.2).session.grows_connectAll now rest).row
    have hlisteners : (s.connect now pair.1 pair.2).session.announcements = s.announcements := by
      funext rows
      rw [announcements, hone.listeners_eq]
      rfl
    simp only [connectAll, calls_append, calls_connect, ih, hlisteners, List.length_append, stages_add,
      announcements_append, hone.length_eq]
    rw [hrow, stages_append (Nat.le_of_eq hone.length_eq.symm)]

/-- **Announcements are exactly those of the changes.** A constraint that comes in, goes or is switched over, and
every solve, is announced to each listener once, in the order of registration; several constraints are announced
one by one; and nothing else is announced. -/
theorem calls_perform (operation : Operation) :
    calls (s.perform observer now operation).effects =
      s.announcements (s.announced operation (s.perform observer now operation)) := by
  cases operation with
  | replaceGeometry snapshot => rfl
  | create request =>
    simp only [perform, create]
    split
    · rfl
    · simp only [Outcome.map, announced, announcements_one, calls_logged, calls_notify]
  | remove id =>
    simp only [perform, remove]
    split
    · rfl
    · simp only [Outcome.map, announced, announcements_one, calls_logged, calls_notify]
  | toggle id active =>
    simp only [perform, toggle]
    split
    · rfl
    · simp only [Outcome.map, announced, announcements_one, calls_logged, calls_notify]
  | solve =>
    obtain ⟨first, last, heffects, hfirst, _, hlast⟩ := (s.storeFirst_solve observer now).split
    simp only [perform, Outcome.map, announced, announcements_one, heffects, calls_append, hfirst, hlast,
      List.nil_append]
  | connectPairs ids => exact s.calls_connectAll now (pairs ids)
  | listen react => rfl
  | unlisten id => rfl

end Calls

/-! ### Listeners -/

/-- What an operation does to the listeners: one may go, the others stay in order, and a new one comes in behind
them with the next number. -/
structure Listening (s : Session) (operation : Operation) (o : Outcome Answer) : Prop where
  row : o.session.listeners = s.listeners.filter (!operation.dismisses ·.id) ++ operation.registered s.nextListener
  numbered : o.answer.listeners = (operation.registered s.nextListener).map (·.id)
  next : o.session.nextListener = s.nextListener + o.answer.listeners.length
  found : ∀ id, operation = .unlisten id → o.answer = .found (decide (id ∈ s.listeners.map (·.id)))

theorem Listening.of_kept {s : Session} {operation : Operation} {o : Outcome Answer} (h : operation.KeepsListeners)
    (hlisteners : o.session.listeners = s.listeners) (hnext : o.session.nextListener = s.nextListener)
    (hanswer : o.answer.listeners = []) : Listening s operation o := by
  have hdismisses : ∀ id, operation.dismisses id = false := fun id => by cases operation <;> first | rfl | exact h.elim
  have hregistered : operation.registered s.nextListener = [] := by cases operation <;> first | rfl | exact h.elim
  refine ⟨?_, ?_, ?_, ?_⟩
  · simp only [hlisteners, hdismisses, hregistered, Bool.not_false, List.filter_true, List.append_nil]
  · rw [hanswer, hregistered, List.map_nil]
  · rw [hanswer, hnext, List.length_nil, Nat.add_zero]
  · rintro id rfl
    exact h.elim

/-- One listener fewer is left exactly if the one to take off is there. -/
theorem answer_unlisten (s : Session) (id : ListenerId) :
    (s.unlisten id).answer = decide (id ∈ s.listeners.map (·.id)) := by
  rw [unlisten, Bool.eq_iff_iff, bne_iff_ne, decide_eq_true_iff, Ne, List.length_filter_eq_length_iff]
  simp only [bne_iff_ne, not_forall, not_not, List.mem_map, exists_prop]

section Registration
variable (observer : Observer) (now : Timestamp) (s : Session)

theorem listening_perform (operation : Operation) : Listening s operation (s.perform observer now operation) := by
  cases operation with
  | replaceGeometry snapshot => exact .of_kept trivial rfl rfl rfl
  | create request =>
    have hgrows := s.grows_create now request
    exact .of_kept trivial hgrows.listeners_eq hgrows.nextListener_eq rfl
  | remove id =>
    simp only [perform, remove]
    split
    · exact .of_kept trivial rfl rfl rfl
    · exact .of_kept trivial rfl rfl rfl
  | toggle id active =>
    simp only [perform, toggle]
    split
    · exact .of_kept trivial rfl rfl rfl
    · exact .of_kept trivial rfl rfl rfl
  | solve => exact .of_kept trivial rfl rfl rfl
  | connectPairs ids =>
    have hgrows := s.grows_connectAll now (pairs ids)
    exact .of_kept trivial hgrows.listeners_eq hgrows.nextListener_eq rfl
  | listen react =>
    refine ⟨?_, rfl, rfl, fun id hid => by cases hid⟩
    simp only [perform, listen, Outcome.map, Operation.dismisses, Operation.registered, Bool.not_false, List.filter_true]
  | unlisten id =>
    refine ⟨(List.append_nil _).symm, rfl, rfl, ?_⟩
    rintro _ ⟨⟩
    exact congrArg Answer.found (s.answer_unlisten id)

/-- The numbers that a run gives to listeners, in order. -/
def enlisted (operations : List (Timestamp × Operation)) : List ListenerId :=
  s.gathered observer Answer.listeners operations

/-- A run gives the next numbers to its listeners, each of them once. -/
theorem enlisted_eq (operations : List (Timestamp × Operation)) :
    s.enlisted observer operations =
      (List.range' s.nextListener (s.enlisted observer operations).length).map ListenerId.mk := by
  induction operations generalizing s with
  | nil => rfl
  | cons o rest ih =>
    have hfirst := s.listening_perform observer o.1 o.2
    have hrest := ih (s.perform observer o.1 o.2).session
    rw [hfirst.next] at hrest
    have hone : (s.perform observer o.1 o.2).answer.listeners =
        (List.range' s.nextListener (s.perform observer o.1 o.2).answer.listeners.length).map ListenerId.mk := by
      rw [hfirst.numbered]
      cases o.2 <;> rfl
    rw [enlisted] at hrest ⊢
    rw [gathered_cons, List.length_append, ← List.range'_append_1, List.map_append, ← hrest, ← hone]

theorem nodup_enlisted (operations : List (Timestamp × Operation)) : (s.enlisted observer operations).Nodup := by
  rw [enlisted_eq]
  refine List.Nodup.map (fun i j hij => congrArg ListenerId.number hij) List.nodup_range'

/-- Who listens has been listening before or has come in since, in this order. -/
theorem listeners_sublist (operations : List (Timestamp × Operation)) :
    ((s.after observer operations).listeners.map (·.id)).Sublist
      (s.listeners.map (·.id) ++ s.enlisted observer operations) := by
  refine s.sublist_gathered observer (fun s => s.listeners.map (·.id)) (fun now operation s => ?_) operations
  have hstep := s.listening_perform observer now operation
  rw [hstep.row, List.map_append, ← hstep.numbered]
  exact (List.filter_sublist.map _).append (.refl _)

end Registration

/-- **Every change is announced, to everyone, and what listeners answer makes no difference.** Listeners get the
numbers from zero on, and no number twice; for up to `2 ^ 64` registrations they have 64 bits. Each operation of a
run calls every listener once for each row that it announces, in the order of registration, and only taking off a
listener makes one go. A run whose operations differ in the reactions of listeners only has the same answers, the
same calls, the same batches for the store, and the same log but for complaints of listeners; and its sessions
differ in those reactions only. -/
theorem run_announces {settings : Settings} {series : Series} {hasStore : Bool} {start : Session}
    (h : ofSettings settings series hasStore = .ok start) (observer : Observer)
    (operations : List (Timestamp × Operation)) :
    let ids := start.enlisted observer operations
    ids = (List.range ids.length).map ListenerId.mk ∧ ids.Nodup ∧
    (ids.length ≤ UInt64.size → ∀ id ∈ ids, id.number < UInt64.size) ∧
    ((start.after observer operations).listeners.map (·.id)).Sublist ids ∧
    (∀ before now operation rest, operations = before ++ (now, operation) :: rest →
      let s := start.after observer before
      let o := s.perform observer now operation
      (s.listeners.map (·.id)).Nodup ∧ calls o.effects = s.announcements (s.announced operation o) ∧
        s.Listening operation o) ∧
    ∀ others, List.Forall₂ (fun a b => b.1 = a.1 ∧ a.2.Alike b.2) operations others →
      List.Forall₂ (fun a b => b.1 = a.1 ∧ muted b.2 = muted a.2 ∧ batches b.2 = batches a.2 ∧ calls b.2 = calls a.2)
          (start.run observer operations).1 (start.run observer others).1 ∧
        (start.after observer operations).Alike (start.after observer others) := by
  intro ids
  obtain ⟨solver, rfl⟩ := ofSettings_eq_ok h
  have hids : ids = (List.range ids.length).map ListenerId.mk := by
    rw [List.range_eq_range']
    exact enlisted_eq observer _ operations
  refine ⟨hids, nodup_enlisted observer _ operations, fun hbound id hid => ?_, listeners_sublist observer _ operations,
    ?_, ?_⟩
  · rw [hids] at hid
    obtain ⟨number, hnumber, rfl⟩ := List.mem_map.mp hid
    exact (List.mem_range.mp hnumber).trans_le hbound
  · rintro before now operation rest rfl s o
    refine ⟨?_, s.calls_perform observer now operation, s.listening_perform observer now operation⟩
    exact (nodup_enlisted observer _ before).sublist (listeners_sublist observer _ before)
  · intro others hothers
    obtain ⟨hsteps, hfinal⟩ := alike_run observer (.refl _) hothers
    refine ⟨hsteps.imp fun a b ⟨hanswer, heffects⟩ => ⟨hanswer, heffects, ?_, ?_⟩, hfinal⟩
    · rw [← batches_muted, heffects, batches_muted]
    · rw [← calls_muted, heffects, calls_muted]

/-- Two pairs of the three circles get a constraint each, and both listeners hear of one after the other. When the
first listener is gone, the second one hears of the radius, but not of the constraint that is refused. Listeners that
break off each time make no difference. -/
theorem run_announces_circles :
    let start : Session := { solver := ⟨{}⟩, suggestions := {}, series := .ofSpace ⟨7⟩ }
    let circles : Snapshot := .ofList
      [(⟨⟨1⟩⟩, .circle ⟨0.0, 0.0⟩ 90.0), (⟨⟨2⟩⟩, .circle ⟨0.0, 0.0⟩ 2.0), (⟨⟨3⟩⟩, .circle ⟨99.0, 0.0⟩ 2.0)]
    let operations (react : List Constraint → Option ListenerError) : List (Timestamp × Operation) :=
      [(⟨1, 0⟩, .replaceGeometry circles), (⟨2, 0⟩, .listen react), (⟨3, 0⟩, .listen react),
        (⟨4, 0⟩, .connectPairs [⟨⟨1⟩⟩, ⟨⟨2⟩⟩, ⟨⟨3⟩⟩]), (⟨5, 0⟩, .unlisten ⟨0⟩),
        (⟨6, 0⟩, .create { kind := .horizontal, entities := [⟨⟨1⟩⟩] }),
        (⟨7, 0⟩, .create { kind := .radius, entities := [⟨⟨1⟩⟩], value := some 3.0 })]
    let quiet := operations fun _ => none
    let failing := operations fun _ => some (.panicked "broken")
    ofSettings {} (.ofSpace ⟨7⟩) false = .ok start ∧
      (calls (start.effectsOf .silent quiet)).map (fun call => (call.1.number, call.2.length)) =
        [(0, 1), (1, 1), (0, 2), (1, 2), (1, 3)] ∧
      (start.after .silent quiet).Alike (start.after .silent failing) := by
  intro start circles operations quiet failing
  have hstart : ofSettings {} (.ofSpace ⟨7⟩) false = .ok start := rfl
  have halike : List.Forall₂ (fun a b => b.1 = a.1 ∧ a.2.Alike b.2) quiet failing := by
    refine .cons ⟨rfl, .same _⟩ (.cons ⟨rfl, .listen _ _⟩ (.cons ⟨rfl, .listen _ _⟩ ?_))
    exact List.forall₂_same.mpr fun _ _ => ⟨rfl, .same _⟩
  exact ⟨hstart, by decide +kernel, ((run_announces hstart .silent quiet).2.2.2.2.2 failing halike).2⟩

end Session

end Drafting
