import Mathlib.Data.List.Induction
import LogicLess.Registry

/-!
# Sessions with a registry

In a session a registry is called again and again, and some calls fail. What stands under a name is told
by the events of the session alone: a registry is a map from names to texts, where the text that was added
last stands until its name is removed or all names are. A call that fails changes nothing.
-/

namespace LogicLess

namespace Template

variable [Alphabet]

theorem parts_of_compile {d : Delimiters} {source : List Char} {name : Option String} {t : Template}
    (h : compile d source name = .ok t) : t.name = name ∧ t.delimiters = d := by
  unfold compile at h
  split at h
  · rw [← Except.ok.inj h]
    exact ⟨rfl, rfl⟩
  · cases h

theorem name_of_compile_error {d : Delimiters} {source : List Char} {name : Option String}
    {e : Diagnostic} (h : compile d source name = .error e) : e.name = name := by
  unfold compile at h
  split at h
  · cases h
  · rw [← Except.error.inj h]

end Template

namespace Registry

/-- A call on a registry. -/
inductive Request
  /-- Adds a template under a name that is not taken. -/
  | add (name : String) (source : List Char)
  /-- Adds a template in place of an earlier one. -/
  | put (name : String) (source : List Char)
  /-- Adds a template to a copy, which takes the place of the registry if that succeeds. -/
  | extend (name : String) (source : List Char)
  | remove (name : String)
  | clear
  | compile (source : List Char)
  | render (depth : Nat) (template : Template) (data : Value)
  | renderNamed (depth : Nat) (name : String) (data : Value)

inductive Answer
  | done
  | removed (template : Option Template)
  | compiled (template : Template)
  | rendered (text : List Char)

/-- A registry, and the history of the lambdas that its templates have called. -/
structure Session where
  registry : Registry
  history : History

abbrev Event := Request × Except Stop Answer

namespace Session

def goOn (s : Session) : Except Diagnostic Registry → Except Stop Answer × Session
  | .ok registry => (.ok .done, { s with registry := registry })
  | .error d => (.error (.failed d), s)

theorem goOn_cases {s next : Session} {answer : Except Stop Answer}
    {result : Except Diagnostic Registry} (h : s.goOn result = (answer, next)) :
    (answer = .ok .done ∧ result = .ok next.registry) ∨
      ∃ d, answer = .error (.failed d) ∧ next = s := by
  cases result with
  | ok registry =>
    cases h
    exact .inl ⟨rfl, rfl⟩
  | error d =>
    cases h
    exact .inr ⟨d, rfl, rfl⟩

def perform [Alphabet] (lambdas : Lambdas) (s : Session) : Request → Except Stop Answer × Session
  | .add name source => s.goOn (s.registry.add name source)
  | .put name source => s.goOn (s.registry.put name source)
  | .extend name source =>
    let copy := s.registry
    s.goOn (copy.add name source)
  | .remove name =>
    (.ok (.removed (s.registry.find? name)), { s with registry := s.registry.remove name })
  | .clear => (.ok .done, { s with registry := s.registry.clear })
  | .compile source => (((s.registry.compile source).map .compiled).mapError .failed, s)
  | .render depth template data =>
    let (result, history) := s.registry.render lambdas depth template data s.history
    (result.map .rendered, { s with history := history })
  | .renderNamed depth name data =>
    let (result, history) := s.registry.renderNamed lambdas depth name data s.history
    (result.map .rendered, { s with history := history })

/-- Makes calls one after the other. The events are kept in their order. -/
def run [Alphabet] (lambdas : Lambdas) (s : Session)
    (requests : List Request) : List Event × Session :=
  requests.foldl
    (fun (events, s) request =>
      let (answer, next) := s.perform lambdas request
      (events ++ [(request, answer)], next))
    ([], s)

end Session

inductive Effect
  | puts (source : List Char)
  | forgets
  | leaves

def Effect.apply : Effect → Option (List Char) → Option (List Char)
  | puts source, _ => some source
  | forgets, _ => none
  | leaves, text => text

namespace Event

/-- An addition puts a text under its name if it succeeds. -/
def effect (name : String) : Event → Effect
  | (.add n source, .ok _) | (.put n source, .ok _) | (.extend n source, .ok _) =>
    if n = name then .puts source else .leaves
  | (.remove n, _) => if n = name then .forgets else .leaves
  | (.clear, _) => .forgets
  | _ => .leaves

end Event

/-- The text under a name after some events, in a map from names to texts. -/
def textAfter (name : String) (events : List Event) : Option (List Char) :=
  events.foldl (fun text e => (Event.effect name e).apply text) none

theorem textAfter_concat (name : String) (events : List Event) (e : Event) :
    textAfter name (events ++ [e]) = (Event.effect name e).apply (textAfter name events) := by
  simp [textAfter]

theorem textAfter_eq_some_iff {name : String} {events : List Event} {source : List Char} :
    textAfter name events = some source ↔ ∃ before e after, events = before ++ e :: after ∧
      Event.effect name e = .puts source ∧ ∀ e' ∈ after, Event.effect name e' = .leaves := by
  -- Seen from its end, a session is decided by its last event unless that leaves the name alone.
  induction events using List.reverseRecOn with
  | nil => simp [textAfter]
  | append_singleton events last ih =>
    rw [textAfter_concat]
    constructor
    · intro h
      cases heffect : Event.effect name last with
      | puts source' =>
        rw [heffect] at h
        cases h
        exact ⟨events, last, [], rfl, heffect, by simp⟩
      | forgets =>
        rw [heffect] at h
        cases h
      | leaves =>
        rw [heffect] at h
        obtain ⟨before, e, after, rfl, he, hafter⟩ := ih.1 h
        refine ⟨before, e, after ++ [last], by simp, he, fun e' he' => ?_⟩
        rcases List.mem_append.1 he' with he' | he'
        · exact hafter e' he'
        · rw [List.mem_singleton.1 he', heffect]
    · rintro ⟨before, e, after, hsplit, he, hafter⟩
      rcases List.eq_nil_or_concat after with rfl | ⟨after, e', rfl⟩
      · obtain ⟨-, rfl⟩ := List.append_singleton_inj.1 hsplit
        rw [he]
        rfl
      · rw [List.concat_eq_append, ← List.cons_append, ← List.append_assoc] at hsplit
        obtain ⟨rfl, rfl⟩ := List.append_singleton_inj.1 hsplit
        rw [hafter last (by simp)]
        exact ih.2 ⟨before, e, after, rfl, he, fun e' he' => hafter e' (by simp [he'])⟩

theorem isSome_textAfter_iff {name : String} {events : List Event} :
    (textAfter name events).isSome = true ↔ ∃ before e after source,
      events = before ++ e :: after ∧ Event.effect name e = .puts source ∧
        ∀ e' ∈ after, Event.effect name e' ≠ .forgets := by
  constructor
  · intro h
    obtain ⟨source, hsource⟩ := Option.isSome_iff_exists.1 h
    obtain ⟨before, e, after, hsplit, he, hafter⟩ := textAfter_eq_some_iff.1 hsource
    exact ⟨before, e, after, source, hsplit, he, fun e' he' => by simp [hafter e' he']⟩
  · rintro ⟨before, e, after, source, rfl, he, hafter⟩
    induction after using List.reverseRecOn with
    | nil =>
      rw [textAfter_concat, he]
      rfl
    | append_singleton after last ih =>
      have hsome := ih fun e' he' => hafter e' (by simp [he'])
      rw [← List.cons_append, ← List.append_assoc, textAfter_concat]
      cases heffect : Event.effect name last with
      | puts => rfl
      | forgets => exact absurd heffect (hafter last (by simp))
      | leaves => exact hsome

/-- Under the name stands the template of the text that a map from names to texts has there. -/
def Holds [Alphabet] (r : Registry) (name : String) : Option (List Char) → Prop
  | none => r.find? name = none
  | some source =>
    ∃ t, Template.compile r.delimiters source (some name) = .ok t ∧ r.find? name = some t

section

variable [Alphabet] {r r' : Registry} {n name : String} {source : List Char}
  {text : Option (List Char)}

theorem Holds.isSome_find? (h : r.Holds name text) : (r.find? name).isSome = text.isSome := by
  cases text with
  | none => rw [show r.find? name = none from h]; rfl
  | some source =>
    obtain ⟨t, -, hfind⟩ := h
    rw [hfind]
    rfl

theorem Holds.of_find?_eq (h : r.Holds name text) (hd : r'.delimiters = r.delimiters)
    (hfind : r'.find? name = r.find? name) : r'.Holds name text := by
  cases text with
  | none => exact hfind.trans h
  | some source =>
    obtain ⟨t, ht, hr⟩ := h
    exact ⟨t, by rw [hd, ht], hfind.trans hr⟩

theorem put_of_add (h : r.add n source = .ok r') : r.put n source = .ok r' := by
  unfold add at h
  split at h
  · cases h
  · exact h

theorem Holds.put (h : r.Holds name text) (hput : r.put n source = .ok r') :
    r'.delimiters = r.delimiters ∧
      r'.Holds name ((if n = name then .puts source else .leaves : Effect).apply text) := by
  unfold Registry.put at hput
  split at hput
  · next t ht =>
    rw [← Except.ok.inj hput]
    refine ⟨rfl, ?_⟩
    split
    · next heq =>
      subst heq
      exact ⟨t, ht, Entries.find?_insert_self n t r.templates⟩
    · next hne => exact h.of_find?_eq rfl (Entries.find?_insert_of_ne (Ne.symm hne) t r.templates)
  · cases hput

theorem Holds.remove (h : r.Holds name text) (n : String) :
    (r.remove n).Holds name ((if n = name then .forgets else .leaves : Effect).apply text) := by
  split
  · next heq =>
    subst heq
    exact Entries.find?_erase_self n r.templates
  · next hne => exact h.of_find?_eq rfl (Entries.find?_erase_of_ne (Ne.symm hne) r.templates)

end

namespace Session

section

variable [Alphabet] {name : String} {source : List Char} {text : Option (List Char)}
variable {lambdas : Lambdas} {s next : Session} {request : Request} {answer : Except Stop Answer}

/-- What a call does to a registry is what it does to a map from names to texts. -/
theorem holds_perform (h : s.perform lambdas request = (answer, next))
    (hs : s.registry.Holds name text) : next.registry.delimiters = s.registry.delimiters ∧
      next.registry.Holds name ((Event.effect name (request, answer)).apply text) := by
  cases request with
  | add n source =>
    rcases goOn_cases h with ⟨rfl, hadd⟩ | ⟨d, rfl, rfl⟩
    · exact hs.put (put_of_add hadd)
    · exact ⟨rfl, hs⟩
  | put n source =>
    rcases goOn_cases h with ⟨rfl, hput⟩ | ⟨d, rfl, rfl⟩
    · exact hs.put hput
    · exact ⟨rfl, hs⟩
  | extend n source =>
    rcases goOn_cases h with ⟨rfl, hadd⟩ | ⟨d, rfl, rfl⟩
    · exact hs.put (put_of_add hadd)
    · exact ⟨rfl, hs⟩
  | remove n =>
    cases h
    exact ⟨rfl, hs.remove n⟩
  | clear =>
    cases h
    exact ⟨rfl, rfl⟩
  | compile source =>
    cases h
    exact ⟨rfl, hs⟩
  | render depth template data =>
    cases h
    exact ⟨rfl, hs⟩
  | renderNamed depth n data =>
    cases h
    exact ⟨rfl, hs⟩

theorem registry_of_perform_error {stop : Stop} (h : s.perform lambdas request = (.error stop, next)) :
    next.registry = s.registry := by
  cases request with
  | add n source | put n source | extend n source =>
    rcases goOn_cases h with ⟨hok, -⟩ | ⟨d, -, rfl⟩
    · cases hok
    · rfl
  | remove n => cases h
  | clear => cases h
  | compile source | render depth template data | renderNamed depth n data =>
    rw [← (Prod.mk.inj h).2]

theorem run_concat (lambdas : Lambdas) (s : Session) (requests : List Request) (request : Request) :
    run lambdas s (requests ++ [request]) =
      let (events, middle) := run lambdas s requests
      let (answer, next) := middle.perform lambdas request
      (events ++ [(request, answer)], next) := by
  simp [run]

theorem map_fst_run (lambdas : Lambdas) (s : Session) (requests : List Request) :
    (run lambdas s requests).1.map Prod.fst = requests := by
  induction requests using List.reverseRecOn with
  | nil => rfl
  | append_singleton requests request ih => simp [run_concat, ih]

/-- A registry that begins empty holds what the events of the session make of a map from names to texts. -/
theorem holds_run (lambdas : Lambdas) (d : Delimiters) (history : History) (requests : List Request)
    (name : String) :
    let (events, s) := run lambdas ⟨.empty d, history⟩ requests
    s.registry.delimiters = d ∧ s.registry.Holds name (textAfter name events) := by
  induction requests using List.reverseRecOn with
  | nil => exact ⟨rfl, rfl⟩
  | append_singleton requests request ih =>
    obtain ⟨hd, hholds⟩ := ih
    rw [run_concat]
    dsimp only
    rw [textAfter_concat]
    obtain ⟨hsame, hnext⟩ := holds_perform rfl hholds
    exact ⟨hsame.trans hd, hnext⟩

theorem perform_add_of_taken (lambdas : Lambdas) (h : (s.registry.find? name).isSome = true)
    (source : List Char) :
    s.perform lambdas (.add name source) = (.error (.failed (duplicateTemplate name)), s) ∧
      s.perform lambdas (.extend name source) = (.error (.failed (duplicateTemplate name)), s) := by
  obtain ⟨t, ht⟩ := Option.isSome_iff_exists.1 h
  simp [perform, Registry.add, ht, goOn]

theorem perform_put_of_error (lambdas : Lambdas) {e : Diagnostic}
    (h : Template.compile s.registry.delimiters source (some name) = .error e) :
    s.perform lambdas (.put name source) = (.error (.failed e), s) := by
  simp [perform, Registry.put, h, goOn]

theorem perform_put_of_ok (lambdas : Lambdas) {t : Template}
    (h : Template.compile s.registry.delimiters source (some name) = .ok t) :
    (s.perform lambdas (.put name source)).1 = .ok .done ∧
      (s.registry.find? name = none → (s.perform lambdas (.add name source)).1 = .ok .done ∧
        (s.perform lambdas (.extend name source)).1 = .ok .done) := by
  refine ⟨by simp [perform, Registry.put, h, goOn], fun hfree => ?_⟩
  simp [perform, Registry.add, hfree, Registry.put, h, goOn]

/-- Over a whole session a registry is a map from names to texts: a name is taken just if a text has been
added under it and not been removed since, and then it has the template of the text that was added last.
What fails changes nothing: neither a name that is taken, whatever the text, nor a text that is no
template. -/
theorem run_refines (lambdas : Lambdas) (d : Delimiters) (history : History)
    (requests : List Request) :
    let (events, s) := run lambdas ⟨.empty d, history⟩ requests
    events.map Prod.fst = requests ∧
    (∀ name, (s.registry.find? name).isSome = true ↔ ∃ before e after source,
      events = before ++ e :: after ∧ Event.effect name e = .puts source ∧
        ∀ e' ∈ after, Event.effect name e' ≠ .forgets) ∧
    (∀ name before e after source, events = before ++ e :: after →
      Event.effect name e = .puts source → (∀ e' ∈ after, Event.effect name e' = .leaves) →
        ∃ t, Template.compile d source (some name) = .ok t ∧ s.registry.find? name = some t ∧
          t.name = some name ∧ t.delimiters = d) ∧
    (∀ request stop next, s.perform lambdas request = (.error stop, next) →
      next.registry = s.registry) ∧
    (∀ name source, (s.registry.find? name).isSome = true →
      s.perform lambdas (.add name source) = (.error (.failed (duplicateTemplate name)), s) ∧
      s.perform lambdas (.extend name source) = (.error (.failed (duplicateTemplate name)), s)) ∧
    (∀ name source e, Template.compile d source (some name) = .error e →
      e.name = some name ∧ s.perform lambdas (.put name source) = (.error (.failed e), s)) ∧
    ∀ name source t, Template.compile d source (some name) = .ok t →
      (s.perform lambdas (.put name source)).1 = .ok .done ∧
      (s.registry.find? name = none → (s.perform lambdas (.add name source)).1 = .ok .done ∧
        (s.perform lambdas (.extend name source)).1 = .ok .done) := by
  have hrequests := map_fst_run lambdas ⟨.empty d, history⟩ requests
  have hrun := holds_run lambdas d history requests
  generalize run lambdas ⟨.empty d, history⟩ requests = result at hrequests hrun ⊢
  obtain ⟨events, s⟩ := result
  obtain rfl : s.registry.delimiters = d := (hrun "").1
  have hholds := fun name => (hrun name).2
  refine ⟨hrequests, fun name => ?_, fun name before e after source hsplit he hafter => ?_,
    fun request stop next => registry_of_perform_error,
    fun name source htaken => perform_add_of_taken lambdas htaken source,
    fun name source e he => ⟨Template.name_of_compile_error he, perform_put_of_error lambdas he⟩,
    fun name source t ht => perform_put_of_ok lambdas ht⟩
  · rw [(hholds name).isSome_find?]
    exact isSome_textAfter_iff
  · have htext := textAfter_eq_some_iff.2 ⟨before, e, after, hsplit, he, hafter⟩
    have hname := hholds name
    rw [htext] at hname
    obtain ⟨t, ht, hfind⟩ := hname
    exact ⟨t, ht, hfind, Template.parts_of_compile ht⟩

end

example :
    let d : Delimiters := ⟨['[', '['], [']', ']'], by decide, by decide⟩
    let (events, s) := run (fun _ _ _ => .returns .null) ⟨.empty d, []⟩
      [.add "a" "x".toList, .extend "a" "y".toList, .put "a" "[[".toList, .remove "b",
        .put "a" "[[=<% %>=]]<%z%>".toList]
    events.map (·.2.toOption.isSome) = [true, false, false, true, true] ∧
      s.registry.find? "a" =
        (Template.compile d "[[=<% %>=]]<%z%>".toList (some "a")).toOption := by
  decide +kernel

end Session

end Registry

end LogicLess
