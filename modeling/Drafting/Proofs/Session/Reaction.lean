import Drafting.Proofs.Session.Rest

/-! What listeners answer makes no difference.

A failing listener leaves a line in the log. Beside these lines (`muted`), two
sessions whose listeners differ in their reactions only have the same effects in
every operation, give the same answers, and stay as alike as they were
(`Session.alike_perform`); so whole runs are the same (`Session.alike_run`). -/
namespace Drafting

/-- The effect is a line about a listener that failed. -/
def Effect.complains : Effect → Bool
  | .logged (.listenerFailed _ _) => true
  | _ => false

/-- The effects without the lines about listeners that failed. -/
def muted (effects : List Effect) : List Effect := effects.filter (!·.complains)

theorem muted_append (a b : List Effect) : muted (a ++ b) = muted a ++ muted b := List.filter_append ..

/-- What such a line has no part in is the same without it. -/
theorem filterMap_muted {α : Type} {f : Effect → Option α} (h : ∀ id error, f (.logged (.listenerFailed id error)) = none)
    (effects : List Effect) : (muted effects).filterMap f = effects.filterMap f := by
  rw [muted, List.filterMap_filter]
  refine List.filterMap_congr fun e _ => ?_
  split
  · rfl
  · rename_i hcomplains
    unfold Effect.complains at hcomplains
    split at hcomplains
    · exact (h _ _).symm
    · cases hcomplains rfl

theorem batches_muted (effects : List Effect) : batches (muted effects) = batches effects :=
  filterMap_muted (fun _ _ => rfl) effects

theorem calls_muted (effects : List Effect) : calls (muted effects) = calls effects :=
  filterMap_muted (fun _ _ => rfl) effects

/-- Operations that are the same, or register listeners with any reactions. -/
inductive Operation.Alike : Operation → Operation → Prop where
  | same (operation : Operation) : Alike operation operation
  | listen (react other : List Constraint → Option ListenerError) : Alike (.listen react) (.listen other)

/-- The second session is the first one, but for what its listeners answer. -/
def Session.Alike (s t : Session) : Prop :=
  ∃ listeners, listeners.map (·.id) = s.listeners.map (·.id) ∧ t = { s with listeners }

namespace Session.Alike

variable {s t : Session}

theorem refl (s : Session) : s.Alike s := ⟨s.listeners, rfl, rfl⟩

theorem geometry_eq (h : s.Alike t) : t.geometry = s.geometry := by
  obtain ⟨_, _, rfl⟩ := h
  rfl

theorem constraints_eq (h : s.Alike t) : t.constraints = s.constraints := by
  obtain ⟨_, _, rfl⟩ := h
  rfl

theorem suggestions_eq (h : s.Alike t) : t.suggestions = s.suggestions := by
  obtain ⟨_, _, rfl⟩ := h
  rfl

end Session.Alike

/-- Outcomes that differ in nothing but what listeners answered. -/
structure Outcome.Alike {α : Type} (o p : Outcome α) : Prop where
  answer : p.answer = o.answer
  effects : muted p.effects = muted o.effects
  session : o.session.Alike p.session

namespace Outcome.Alike

variable {α : Type}

theorem map {β : Type} {o p : Outcome α} (h : o.Alike p) (f : α → β) : (o.map f).Alike (p.map f) :=
  ⟨congrArg f h.answer, h.effects, h.session⟩

/-- One answer and the same effects in sessions that are alike. -/
theorem of_session {s t : Session} (h : s.Alike t) (answer : α) (effects : List Effect) :
    Alike ⟨answer, s, effects⟩ ⟨answer, t, effects⟩ := ⟨rfl, rfl, h⟩

end Outcome.Alike

namespace Session

/-- Beside complaints, a notification is a call of each listener. -/
theorem muted_notify (s : Session) :
    muted s.notify = (s.listeners.map (·.id)).map (Effect.notified · s.constraints) := by
  unfold notify
  induction s.listeners with
  | nil => rfl
  | cons l rest ih =>
    rw [List.flatMap_cons, muted_append, ih]
    cases l.react s.constraints <;> rfl

/-- An outcome that ends with a notification. -/
theorem Alike.notified {α : Type} {s t : Session} (h : s.Alike t) (answer : α) (effects : List Effect) :
    Outcome.Alike ⟨answer, s, effects ++ s.notify⟩ ⟨answer, t, effects ++ t.notify⟩ := by
  refine ⟨rfl, ?_, h⟩
  obtain ⟨listeners, hids, rfl⟩ := h
  simp only [muted_append, muted_notify, hids]

/-! ### One operation -/

section Operations
variable (observer : Observer) (now : Timestamp) {s t : Session} (h : s.Alike t)
include h

theorem alike_create (r : Request) : (s.create now r).Alike (t.create now r) := by
  obtain ⟨listeners, hids, rfl⟩ := h
  cases hcheck : Admission.check s.geometry r.kind r.entities r.parameters with
  | error e =>
    simp only [create, hcheck]
    exact .of_session ⟨listeners, hids, rfl⟩ _ _
  | ok _ =>
    simp only [create, hcheck]
    refine Alike.notified ?_ _ [_]
    exact ⟨listeners, hids, rfl⟩

theorem alike_remove (id : ConstraintId) : (s.remove id).Alike (t.remove id) := by
  obtain ⟨listeners, hids, rfl⟩ := h
  cases hfound : s.constraint? id with
  | none =>
    have hother : ({ s with listeners } : Session).constraint? id = none := hfound
    simp only [remove, hfound, hother]
    exact .of_session ⟨listeners, hids, rfl⟩ _ _
  | some c =>
    have hother : ({ s with listeners } : Session).constraint? id = some c := hfound
    simp only [remove, hfound, hother]
    refine Alike.notified ?_ _ [_]
    exact ⟨listeners, hids, rfl⟩

theorem alike_toggle (id : ConstraintId) (active : Option Bool) : (s.toggle now id active).Alike (t.toggle now id active) := by
  obtain ⟨listeners, hids, rfl⟩ := h
  cases hfound : s.constraints.findIdx? (·.id == id) with
  | none =>
    simp only [toggle, hfound]
    exact .of_session ⟨listeners, hids, rfl⟩ _ _
  | some i =>
    simp only [toggle, hfound]
    refine Alike.notified ?_ _ [_]
    exact ⟨listeners, hids, rfl⟩

theorem alike_solve : (s.solve observer now).Alike (t.solve observer now) := by
  obtain ⟨listeners, hids, rfl⟩ := h
  refine Alike.notified (s := (s.solve observer now).session) ?_ _ _
  exact ⟨listeners, hids, rfl⟩

theorem alike_connect (first second : EntityId) : (s.connect now first second).Alike (t.connect now first second) := by
  unfold connect
  rw [h.geometry_eq, h.suggestions_eq, h.constraints_eq]
  split
  · split
    · exact .of_session h _ _
    · rename_i kind _
      split
      · exact .of_session h _ _
      · have hcreate := alike_create now h
          { kind, entities := [first, second], priority := some .low, description := some kind.suggestionText }
        simp only [hcreate.answer]
        split
        · exact ⟨rfl, hcreate.effects, hcreate.session⟩
        · refine ⟨rfl, ?_, hcreate.session⟩
          rw [muted_append, muted_append, hcreate.effects]
  · exact .of_session h _ _

theorem alike_connectAll (pairs : List (EntityId × EntityId)) : (s.connectAll now pairs).Alike (t.connectAll now pairs) := by
  induction pairs generalizing s t with
  | nil => exact .of_session h _ _
  | cons pair rest ih =>
    have hone := alike_connect now h pair.1 pair.2
    have hothers := ih hone.session
    refine ⟨?_, ?_, hothers.session⟩
    · simp only [connectAll, hone.answer, hothers.answer]
    · simp only [connectAll, muted_append, hone.effects, hothers.effects]

theorem alike_listen (react other : List Constraint → Option ListenerError) : (s.listen react).Alike (t.listen other) := by
  obtain ⟨listeners, hids, rfl⟩ := h
  refine ⟨rfl, rfl, listeners ++ [_], ?_, rfl⟩
  simp only [listen, List.map_append, hids, List.map_cons, List.map_nil]

theorem alike_unlisten (id : ListenerId) : (s.unlisten id).Alike (t.unlisten id) := by
  obtain ⟨listeners, hids, rfl⟩ := h
  have hkept (l : List Listener) : (l.filter (·.id != id)).map (·.id) = (l.map (·.id)).filter (· != id) := by
    rw [List.filter_map]
    rfl
  have hlengths : (listeners.filter (·.id != id)).length = (s.listeners.filter (·.id != id)).length ∧
      listeners.length = s.listeners.length := by
    have hleft := congrArg List.length (hkept listeners)
    have hright := congrArg List.length (hkept s.listeners)
    have hall := congrArg List.length hids
    rw [hids] at hleft
    rw [List.length_map] at hleft hright
    rw [List.length_map, List.length_map] at hall
    exact ⟨hleft.trans hright.symm, hall⟩
  refine ⟨?_, rfl, listeners.filter (·.id != id), ?_, rfl⟩
  · simp only [unlisten, hlengths.1, hlengths.2]
  · rw [hkept, hids, ← hkept]
    rfl

theorem alike_perform {a b : Operation} (hab : a.Alike b) : (s.perform observer now a).Alike (t.perform observer now b) := by
  cases hab with
  | listen react other => exact (alike_listen h react other).map _
  | same =>
    cases a with
    | replaceGeometry snapshot =>
      obtain ⟨listeners, hids, rfl⟩ := h
      exact ⟨rfl, rfl, listeners, hids, rfl⟩
    | create request => exact (alike_create now h request).map _
    | remove id => exact (alike_remove h id).map _
    | toggle id active => exact (alike_toggle now h id active).map _
    | solve => exact (alike_solve observer now h).map _
    | connectPairs ids => exact (alike_connectAll now h _).map _
    | listen react => exact (alike_listen h react react).map _
    | unlisten id => exact (alike_unlisten h id).map _

end Operations

/-! ### Runs -/

/-- Runs of operations that are alike give the same answers at every step, with the same effects. -/
theorem alike_run (observer : Observer) {s t : Session} (h : s.Alike t) {operations others : List (Timestamp × Operation)}
    (halike : List.Forall₂ (fun a b => b.1 = a.1 ∧ a.2.Alike b.2) operations others) :
    List.Forall₂ (fun a b => b.1 = a.1 ∧ muted b.2 = muted a.2)
        (s.run observer operations).1 (t.run observer others).1 ∧
      (s.after observer operations).Alike (t.after observer others) := by
  induction halike generalizing s t with
  | nil => exact ⟨.nil, h⟩
  | @cons a b _ _ hab _ ih =>
    obtain ⟨_, operation⟩ := a
    obtain ⟨now, other⟩ := b
    obtain ⟨rfl, hoperation⟩ := hab
    have hfirst := alike_perform observer now h hoperation
    obtain ⟨hrest, hfinal⟩ := ih hfirst.session
    exact ⟨.cons ⟨hfirst.answer, hfirst.effects⟩ hrest, hfinal⟩

end Session

end Drafting
