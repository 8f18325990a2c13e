import DataFilter.Proofs.Outcome
import DataFilter.Specification.Cache
import Mathlib.Data.Finset.Card

/-!
# The cache stays coherent

A cache is asked for templates, for how many it keeps, and to forget them all. Whatever is asked in
whatever order, what it keeps and what it has handed out are readings of the templates they were
asked for: of one text the same one as long as nothing is forgotten, and of two texts never the same
one.

What carries the proofs is a record that only grows, `IsCoherentWith`: the specifications that have
been read since the cache was made, by their serial numbers. Forgetting takes the entries of the
cache and leaves the record, so that no number is given twice.
-/

namespace DataFilter

theorem Specification.parse_eq_ok_iff {template : String} {spec : Specification} :
    parse template = .ok spec ↔ spec.template = template ∧ Node.parse template = .ok spec.tree := by
  constructor
  · intro parsed
    obtain ⟨tree, read, ⟨⟩⟩ := bind_eq_ok parsed
    exact ⟨rfl, read⟩
  · rintro ⟨rfl, read⟩
    rw [parse, read]
    rfl

namespace Templates

/-! ## Requests -/

/-- What a cache is asked for. -/
inductive Request where
  | get (template : String)
  | size
  | isEmpty
  | clear
  deriving DecidableEq

/-- What a cache answers. -/
inductive Answer where
  | handed (shared : Shared)
  | refused (error : SyntaxError)
  | size (n : Nat)
  | isEmpty (empty : Bool)
  | cleared

/-- Answers a request. A template with a fault leaves the cache as it is. -/
def perform (cache : Templates) : Request → Answer × Templates
  | .get template =>
    match cache.getOrParse template with
    | .ok (shared, cache) => (.handed shared, cache)
    | .error e => (.refused e, cache)
  | .size => (.size cache.size, cache)
  | .isEmpty => (.isEmpty cache.isEmpty, cache)
  | .clear => (.cleared, cache.clear)

/-- A cache in use, with the specifications that its users hold, each with the text that was asked
for. -/
structure Service where
  cache : Templates
  held : List (String × Shared)

namespace Service

/-- A new cache. -/
def start : Service := ⟨empty, []⟩

/-- The service after one more request. -/
def serve (s : Service) (request : Request) : Service :=
  let (answer, cache) := s.cache.perform request
  match request, answer with
  | .get template, .handed shared => ⟨cache, s.held ++ [(template, shared)]⟩
  | _, _ => ⟨cache, s.held⟩

/-- The service after these requests. -/
def after (requests : List Request) : Service := requests.foldl serve start

/-- The answer to a request that comes after others. -/
def answerAfter (requests : List Request) (request : Request) : Answer :=
  ((after requests).cache.perform request).1

theorem after_append (front back : List Request) :
    after (front ++ back) = back.foldl serve (after front) := List.foldl_append

theorem after_concat (requests : List Request) (request : Request) :
    after (requests ++ [request]) = (after requests).serve request := after_append requests [request]

end Service

/-! ## One request for a template -/

/-- What a request for a template comes to: what there is of it is handed out; else, unless it has a
fault, it is read under the next number and kept. -/
inductive Gets (cache : Templates) (template : String) : Answer → Templates → Prop where
  | found {shared : Shared} (there : cache.entries.get? template = some shared) :
      Gets cache template (.handed shared) cache
  | fault {e : SyntaxError} (absent : cache.entries.get? template = none)
      (refused : Specification.parse template = .error e) :
      Gets cache template (.refused e) cache
  | read {spec : Specification} (absent : cache.entries.get? template = none)
      (parsed : Specification.parse template = .ok spec) :
      Gets cache template (.handed ⟨cache.issued, spec⟩)
        ⟨cache.entries.insert template ⟨cache.issued, spec⟩, cache.issued + 1⟩

theorem gets_perform (cache : Templates) (template : String) :
    ∃ answer cache', cache.perform (.get template) = (answer, cache') ∧
      Gets cache template answer cache' := by
  cases there : cache.entries.get? template with
  | some shared =>
      refine ⟨_, _, ?_, .found there⟩
      rw [perform, getOrParse, there]
  | none =>
      cases read : Specification.parse template with
      | error e =>
          refine ⟨_, _, ?_, .fault there read⟩
          rw [perform, getOrParse, there, read]
          rfl
      | ok spec =>
          -- nothing has been kept since it was looked for
          have keeps : cache.keep template spec = (⟨cache.issued, spec⟩,
              ⟨cache.entries.insert template ⟨cache.issued, spec⟩, cache.issued + 1⟩) := by
            rw [keep, there]
          refine ⟨_, _, ?_, .read there read⟩
          rw [perform, getOrParse, there, read]
          show (match Except.ok (cache.keep template spec) with
            | .ok (shared, cache) => (Answer.handed shared, cache)
            | .error e => (Answer.refused e, cache)) = _
          rw [keeps]

/-! ## Coherence -/

/-- The specification is the reading of the template that was recorded under its number. -/
structure IsReading (record : List Specification) (template : String) (shared : Shared) : Prop where
  recorded : record[shared.serial]? = some shared.specification
  parsed : Specification.parse template = .ok shared.specification

namespace IsReading

variable {record : List Specification} {template other : String} {shared shared' : Shared}

theorem append (h : IsReading record template shared) (more : List Specification) :
    IsReading (record ++ more) template shared := by
  refine ⟨?_, h.parsed⟩
  obtain ⟨bound, -⟩ := List.getElem?_eq_some_iff.mp h.recorded
  rw [List.getElem?_append_left bound]
  exact h.recorded

/-- Under one number there is one specification, and it is the reading of one template. -/
theorem unique (h : IsReading record template shared) (h' : IsReading record other shared')
    (same : shared.serial = shared'.serial) : shared = shared' ∧ template = other := by
  obtain ⟨serial, spec⟩ := shared
  obtain ⟨serial', spec'⟩ := shared'
  obtain rfl : serial = serial' := same
  obtain rfl : spec = spec' := Option.some.inj (h.recorded.symm.trans h'.recorded)
  obtain ⟨text, -⟩ := Specification.parse_eq_ok_iff.mp h.parsed
  obtain ⟨text', -⟩ := Specification.parse_eq_ok_iff.mp h'.parsed
  exact ⟨rfl, text.symm.trans text'⟩

end IsReading

/-- The record holds all that has been read: as much as the cache has counted, with what it keeps,
each text once, and what its users hold. -/
structure IsCoherentWith (record : List Specification) (s : Service) : Prop where
  issued : s.cache.issued = record.length
  names : (s.cache.entries.map Prod.fst).Nodup
  kept : ∀ entry ∈ s.cache.entries, IsReading record entry.1 entry.2
  held : ∀ entry ∈ s.held, IsReading record entry.1 entry.2

namespace IsCoherentWith

variable {record : List Specification} {cache : Templates} {held : List (String × Shared)}
  {s : Service} {template : String} {shared : Shared}

/-- What the cache finds under a text is a reading of it. -/
theorem isReading (h : IsCoherentWith record s)
    (there : s.cache.entries.get? template = some shared) : IsReading record template shared :=
  h.kept (template, shared) (Entries.mem_of_get? there)

/-- A reading may be handed out. -/
theorem hand (h : IsCoherentWith record ⟨cache, held⟩) (reading : IsReading record template shared) :
    IsCoherentWith record ⟨cache, held ++ [(template, shared)]⟩ := by
  refine ⟨h.issued, h.names, h.kept, ?_⟩
  intro entry member
  rcases List.mem_append.mp member with before | last
  · exact h.held entry before
  · rw [List.mem_singleton.mp last]
    exact reading

/-- A template that is not there may be read, and goes on record. -/
theorem read (h : IsCoherentWith record ⟨cache, held⟩)
    (absent : cache.entries.get? template = none) {spec : Specification}
    (parsed : Specification.parse template = .ok spec) :
    IsCoherentWith (record ++ [spec]) ⟨⟨cache.entries.insert template ⟨cache.issued, spec⟩,
      cache.issued + 1⟩, held ++ [(template, ⟨cache.issued, spec⟩)]⟩ := by
  have unnamed : template ∉ cache.entries.map Prod.fst := by
    rw [← Entries.get?_isSome_iff, absent]
    exact Bool.false_ne_true
  have one_more := Entries.insert_perm unnamed ⟨cache.issued, spec⟩
  -- the number that is given next is the next place of the record
  have new : IsReading (record ++ [spec]) template ⟨cache.issued, spec⟩ := by
    refine ⟨?_, parsed⟩
    show (record ++ [spec])[cache.issued]? = _
    rw [show cache.issued = record.length from h.issued]
    exact List.getElem?_concat_length
  refine hand ⟨?_, ?_, ?_, ?_⟩ new
  · show cache.issued + 1 = _
    rw [show cache.issued = record.length from h.issued, List.length_append]
    rfl
  · exact (one_more.map Prod.fst).nodup_iff.mpr (List.nodup_cons.mpr ⟨unnamed, h.names⟩)
  · intro entry member
    rcases List.mem_cons.mp (one_more.mem_iff.mp member) with rfl | before
    · exact new
    · exact (h.kept entry before).append [spec]
  · intro entry before
    exact (h.held entry before).append [spec]

/-- A request keeps the service coherent, with a record that has grown by what was read. -/
theorem serve (h : IsCoherentWith record s) (request : Request) :
    ∃ more, IsCoherentWith (record ++ more) (s.serve request) := by
  have unread {s' : Service} (h' : IsCoherentWith record s') :
      ∃ more, IsCoherentWith (record ++ more) s' := ⟨[], by rwa [List.append_nil]⟩
  cases request with
  | get template =>
      obtain ⟨answer, cache', performed, gets⟩ := gets_perform s.cache template
      rw [Service.serve, performed]
      cases gets with
      | found there => exact unread (h.hand (h.isReading there))
      | fault absent refused => exact unread h
      | read absent parsed => exact ⟨_, h.read absent parsed⟩
  | size => exact unread h
  | isEmpty => exact unread h
  | clear => exact unread ⟨h.issued, List.nodup_nil, nofun, h.held⟩

end IsCoherentWith

namespace Service

/-- The service is coherent after any requests. -/
theorem exists_isCoherentWith_after (requests : List Request) :
    ∃ record, IsCoherentWith record (after requests) := by
  induction requests using List.reverseRecOn with
  | nil => exact ⟨[], rfl, List.nodup_nil, nofun, nofun⟩
  | append_singleton requests request ih =>
      obtain ⟨record, coherent⟩ := ih
      obtain ⟨more, served⟩ := coherent.serve request
      rw [after_concat]
      exact ⟨record ++ more, served⟩

/-! ## What is kept, and for how long -/

section Keeping

variable {s : Service} {template : String} {shared : Shared}

/-- What is handed out is there, and held. -/
theorem get?_serve_get (answered : (s.cache.perform (.get template)).1 = .handed shared) :
    (s.serve (.get template)).cache.entries.get? template = some shared ∧
      (s.serve (.get template)).held = s.held ++ [(template, shared)] := by
  obtain ⟨answer, cache', performed, gets⟩ := gets_perform s.cache template
  rw [performed] at answered
  rw [serve, performed]
  cases gets with
  | found there =>
      cases answered
      exact ⟨there, rfl⟩
  | fault absent refused => cases answered
  | read absent parsed =>
      cases answered
      refine ⟨?_, rfl⟩
      rw [Entries.get?_insert, if_pos rfl]

/-- What is there is handed out. -/
theorem perform_get_of_there (there : s.cache.entries.get? template = some shared) :
    (s.cache.perform (.get template)).1 = .handed shared := by
  rw [perform, getOrParse, there]

/-- What is there stays there until the cache is cleared. -/
theorem get?_serve (there : s.cache.entries.get? template = some shared) {request : Request}
    (keeps : request ≠ .clear) :
    (s.serve request).cache.entries.get? template = some shared := by
  cases request with
  | get other =>
      obtain ⟨answer, cache', performed, gets⟩ := gets_perform s.cache other
      rw [serve, performed]
      cases gets with
      | found _ => exact there
      | fault _ _ => exact there
      | read absent parsed =>
          have different : template ≠ other := by
            rintro rfl
            rw [there] at absent
            cases absent
          rw [Entries.get?_insert, if_neg different]
          exact there
  | size => exact there
  | isEmpty => exact there
  | clear => exact absurd rfl keeps

theorem get?_foldl_serve (there : s.cache.entries.get? template = some shared)
    {later : List Request} (keeps : .clear ∉ later) :
    (later.foldl serve s).cache.entries.get? template = some shared := by
  induction later generalizing s with
  | nil => exact there
  | cons request later ih =>
      rw [List.mem_cons, not_or] at keeps
      exact ih (get?_serve there (Ne.symm keeps.1)) keeps.2

theorem held_prefix_serve (s : Service) (request : Request) : s.held <+: (s.serve request).held := by
  cases request with
  | get template =>
      obtain ⟨answer, cache', performed, gets⟩ := gets_perform s.cache template
      rw [serve, performed]
      cases gets with
      | fault _ _ => exact List.prefix_refl s.held
      | _ => exact List.prefix_append s.held _
  | _ => exact List.prefix_refl s.held

/-- Nobody has to give back what was handed out. -/
theorem held_prefix_foldl_serve (s : Service) (later : List Request) :
    s.held <+: (later.foldl serve s).held := by
  induction later generalizing s with
  | nil => exact List.prefix_refl s.held
  | cons request later ih => exact (held_prefix_serve s request).trans (ih (s.serve request))

end Keeping

/-! ## How much is kept -/

/-- The text was asked for since the cache was last cleared, and it has no fault. -/
def IsInUse (requests : List Request) (template : String) : Prop :=
  (∃ tree, Node.parse template = .ok tree) ∧
    ∃ front back, requests = front ++ .get template :: back ∧ .clear ∉ back

theorem isInUse_concat {requests : List Request} {request : Request} {template : String} :
    IsInUse (requests ++ [request]) template ↔
      (request = .get template ∧ ∃ tree, Node.parse template = .ok tree) ∨
        (request ≠ .clear ∧ IsInUse requests template) := by
  constructor
  · rintro ⟨read, front, back, split, keeps⟩
    rcases List.eq_nil_or_concat back with rfl | ⟨before, last, rfl⟩
    · obtain ⟨-, only⟩ := List.append_inj' split rfl
      cases only
      exact .inl ⟨rfl, read⟩
    · rw [List.concat_eq_append] at split keeps
      rw [← List.cons_append, ← List.append_assoc] at split
      obtain ⟨rfl, only⟩ := List.append_inj' split rfl
      cases only
      rw [List.mem_append, not_or, List.mem_singleton] at keeps
      exact .inr ⟨Ne.symm keeps.2, read, front, before, rfl, keeps.1⟩
  · rintro (⟨rfl, read⟩ | ⟨kept, read, front, back, rfl, keeps⟩)
    · exact ⟨read, requests, [], rfl, List.not_mem_nil⟩
    · refine ⟨read, front, back ++ [request], by simp, ?_⟩
      rw [List.mem_append, not_or, List.mem_singleton]
      exact ⟨keeps, Ne.symm kept⟩

/-- A request for a template adds its text, and clearing takes all of them. -/
theorem mem_names_serve (s : Service) (request : Request) (template : String) :
    template ∈ (s.serve request).cache.entries.map Prod.fst ↔
      (request = .get template ∧ ∃ tree, Node.parse template = .ok tree) ∨
        (request ≠ .clear ∧ template ∈ s.cache.entries.map Prod.fst) := by
  cases request with
  | get other =>
      obtain ⟨answer, cache', performed, gets⟩ := gets_perform s.cache other
      rw [serve, performed]
      have readable {spec : Specification} (parsed : Specification.parse other = .ok spec) :
          ∃ tree, Node.parse other = .ok tree :=
        ⟨spec.tree, (Specification.parse_eq_ok_iff.mp parsed).2⟩
      cases gets with
      | @found shared there =>
          have named : other ∈ s.cache.entries.map Prod.fst := by
            rw [← Entries.get?_isSome_iff, there]
            rfl
          constructor
          · intro member
            exact .inr ⟨nofun, member⟩
          · rintro (⟨⟨⟩, -⟩ | ⟨-, member⟩)
            · exact named
            · exact member
      | fault absent refused =>
          constructor
          · intro member
            exact .inr ⟨nofun, member⟩
          · rintro (⟨⟨⟩, tree, read⟩ | ⟨-, member⟩)
            · rw [Specification.parse, read] at refused
              cases refused
            · exact member
      | @read spec absent parsed =>
          have unnamed : other ∉ s.cache.entries.map Prod.fst := by
            rw [← Entries.get?_isSome_iff, absent]
            exact Bool.false_ne_true
          have one_more := (Entries.insert_perm unnamed ⟨s.cache.issued, spec⟩).map Prod.fst
          show template ∈ (s.cache.entries.insert other _).map Prod.fst ↔ _
          rw [one_more.mem_iff, List.map_cons, List.mem_cons]
          constructor
          · rintro (rfl | member)
            · exact .inl ⟨rfl, readable parsed⟩
            · exact .inr ⟨nofun, member⟩
          · rintro (⟨⟨⟩, -⟩ | ⟨-, member⟩)
            · exact .inl rfl
            · exact .inr member
  | size => simp [serve, perform]
  | isEmpty => simp [serve, perform]
  | clear => simp [serve, perform, clear]

/-- What the cache keeps are the texts that are in use. -/
theorem mem_names_after (requests : List Request) (template : String) :
    template ∈ (after requests).cache.entries.map Prod.fst ↔ IsInUse requests template := by
  induction requests using List.reverseRecOn with
  | nil => simp [after, start, empty, IsInUse]
  | append_singleton requests request ih =>
      rw [after_concat, mem_names_serve, isInUse_concat, ih]

/-! ## Any requests -/

/-- What holds of a cache after any requests. -/
structure IsSound (requests : List Request) : Prop where
  /-- What it keeps under a text is the template with its tree. -/
  kept : ∀ key shared, (key, shared) ∈ (after requests).cache.entries →
    shared.specification.template = key ∧ Node.parse key = .ok shared.specification.tree
  /-- A template is handed out just if it has no fault. -/
  handed : ∀ template, (∃ shared, answerAfter requests (.get template) = .handed shared) ↔
    ∃ tree, Node.parse template = .ok tree
  /-- Else the fault is told, and the cache is as it was. -/
  refused : ∀ template e, Node.parse template = .error e →
    (after requests).cache.perform (.get template) = (.refused e, (after requests).cache)
  /-- Until the cache is cleared, one text is answered with one specification. -/
  shared : ∀ template shared later, answerAfter requests (.get template) = .handed shared →
    .clear ∉ later → answerAfter (requests ++ .get template :: later) (.get template) =
      .handed shared
  /-- Of what users hold, different texts have different specifications, and what has one number is
  one specification, also if the cache was cleared in between. -/
  separate : ∀ template shared template' shared', (template, shared) ∈ (after requests).held →
    (template', shared') ∈ (after requests).held →
      (template ≠ template' → shared.serial ≠ shared'.serial) ∧
      (shared.serial = shared'.serial → shared = shared')
  /-- What was handed out is held from then on, whatever comes later, and it is the template that
  was asked for with its tree. -/
  held : ∀ template shared later, answerAfter requests (.get template) = .handed shared →
    (template, shared) ∈ (after (requests ++ .get template :: later)).held ∧
      shared.specification.template = template ∧
      Node.parse template = .ok shared.specification.tree
  /-- The cache keeps as many specifications as texts are in use. -/
  counted : ∃ texts : Finset String, (∀ template, template ∈ texts ↔ IsInUse requests template) ∧
    answerAfter requests .size = .size texts.card ∧
    answerAfter requests .isEmpty = .isEmpty (texts.card = 0)

theorem after_get_cons (requests : List Request) (template : String) (later : List Request) :
    after (requests ++ .get template :: later) =
      later.foldl serve ((after requests).serve (.get template)) := after_append _ _

/-- Whatever a cache is asked for, it stays sound. -/
theorem stays_sound (requests : List Request) : IsSound requests := by
  obtain ⟨record, coherent⟩ := exists_isCoherentWith_after requests
  refine ⟨?_, ?_, ?_, ?_, ?_, ?_, ?_⟩
  · intro key shared member
    exact Specification.parse_eq_ok_iff.mp (coherent.kept (key, shared) member).parsed
  · intro template
    obtain ⟨answer, cache', performed, gets⟩ := gets_perform (after requests).cache template
    rw [answerAfter, performed]
    cases gets with
    | @found shared there =>
        have reading := Specification.parse_eq_ok_iff.mp (coherent.isReading there).parsed
        exact ⟨fun _ => ⟨_, reading.2⟩, fun _ => ⟨shared, rfl⟩⟩
    | fault absent refused =>
        refine ⟨nofun, ?_⟩
        rintro ⟨tree, read⟩
        rw [Specification.parse, read] at refused
        cases refused
    | read absent parsed =>
        have reading := Specification.parse_eq_ok_iff.mp parsed
        exact ⟨fun _ => ⟨_, reading.2⟩, fun _ => ⟨_, rfl⟩⟩
  · intro template e fault
    have unread : Specification.parse template = .error e := by
      rw [Specification.parse, fault]
      rfl
    obtain ⟨answer, cache', performed, gets⟩ := gets_perform (after requests).cache template
    rw [performed]
    cases gets with
    | found there =>
        rw [(coherent.isReading there).parsed] at unread
        cases unread
    | fault absent refused =>
        rw [refused] at unread
        cases unread
        rfl
    | read absent parsed =>
        rw [parsed] at unread
        cases unread
  · intro template shared later answered keeps
    have there := get?_foldl_serve (get?_serve_get answered).1 keeps
    rw [answerAfter, after_get_cons]
    exact perform_get_of_there there
  · intro template shared template' shared' first second
    have one := coherent.held (template, shared) first
    have other := coherent.held (template', shared') second
    refine ⟨?_, ?_⟩
    · intro different same
      exact different (one.unique other same).2
    · intro same
      exact (one.unique other same).1
  · intro template shared later answered
    have member : (template, shared) ∈ ((after requests).serve (.get template)).held := by
      rw [(get?_serve_get answered).2]
      exact List.mem_append_right _ List.mem_cons_self
    have still := (held_prefix_foldl_serve _ later).subset member
    rw [← after_get_cons] at still
    obtain ⟨longer, coherent'⟩ :=
      exists_isCoherentWith_after (requests ++ .get template :: later)
    exact ⟨still, Specification.parse_eq_ok_iff.mp (coherent'.held _ still).parsed⟩
  · refine ⟨((after requests).cache.entries.map Prod.fst).toFinset, ?_, ?_, ?_⟩
    · intro template
      rw [List.mem_toFinset]
      exact mem_names_after requests template
    · rw [List.toFinset_card_of_nodup coherent.names, List.length_map]
      rfl
    · rw [List.toFinset_card_of_nodup coherent.names, List.length_map]
      show Answer.isEmpty (after requests).cache.entries.isEmpty = _
      cases (after requests).cache.entries <;> rfl

end Service

end Templates

end DataFilter
