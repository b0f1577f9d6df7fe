import Mathlib.Tactic

/-!
# Streams of JSON events

A streaming encoder is told a document as a sequence of events: the begins and
ends of arrays and objects, keys and scalars. Not every sequence is a
document. Begins and ends must match, a key must stand before every value of
an object and nowhere else, no key may stand twice in one object, and there
must be exactly one root.

`JsonReader` checks this with a stack of the containers that are still open,
and builds the document on the way. `JsonTree.events` goes back, and
`denote_events` says that the reader undoes it: it is how a sequence of events
is shown to be a document, by exhibiting the document.
-/

namespace JsonEvents

/-- An event of an encoder. -/
inductive JsonEvent (κ σ : Type)
  | beginArray
  | endArray
  | beginObject
  | endObject
  | key (k : κ)
  | scalar (s : σ)
deriving DecidableEq

/-- A document, with its members in order. -/
inductive JsonTree (κ σ : Type)
  | scalar (s : σ)
  | array (xs : List (JsonTree κ σ))
  | object (ms : List (κ × JsonTree κ σ))

variable {κ σ : Type}

/-! ## The events of a document -/

namespace JsonTree

mutual
/-- The events of a document. -/
def events : JsonTree κ σ → List (JsonEvent κ σ)
  | .scalar s => [.scalar s]
  | .array xs => .beginArray :: (eventsList xs ++ [.endArray])
  | .object ms => .beginObject :: (eventsMembers ms ++ [.endObject])

/-- The events of the elements of an array. -/
def eventsList : List (JsonTree κ σ) → List (JsonEvent κ σ)
  | [] => []
  | x :: xs => x.events ++ eventsList xs

/-- The events of the members of an object. -/
def eventsMembers : List (κ × JsonTree κ σ) → List (JsonEvent κ σ)
  | [] => []
  | (k, x) :: ms => .key k :: (x.events ++ eventsMembers ms)
end

mutual
/-- No object in the document has a key twice. -/
def NodupKeys : JsonTree κ σ → Prop
  | .scalar _ => True
  | .array xs => NodupKeysList xs
  | .object ms => (ms.map Prod.fst).Nodup ∧ NodupKeysMembers ms

/-- None in the elements of an array. -/
def NodupKeysList : List (JsonTree κ σ) → Prop
  | [] => True
  | x :: xs => x.NodupKeys ∧ NodupKeysList xs

/-- None in the members of an object. -/
def NodupKeysMembers : List (κ × JsonTree κ σ) → Prop
  | [] => True
  | (_, x) :: ms => x.NodupKeys ∧ NodupKeysMembers ms
end

/-- The member of an object with a key. -/
def member [DecidableEq κ] (k : κ) : JsonTree κ σ → Option (JsonTree κ σ)
  | .object ms => ms.lookup k
  | _ => none

theorem eventsList_append (xs ys : List (JsonTree κ σ)) :
    eventsList (xs ++ ys) = eventsList xs ++ eventsList ys := by
  induction xs with
  | nil => rfl
  | cons x xs ih => rw [List.cons_append, eventsList, eventsList, ih, List.append_assoc]

/-- An array of scalars is a run of scalar events. -/
theorem eventsList_map_scalar (ss : List σ) :
    eventsList (ss.map JsonTree.scalar) = (ss.map JsonEvent.scalar : List (JsonEvent κ σ)) := by
  induction ss with
  | nil => rfl
  | cons s ss ih =>
    rw [List.map_cons, List.map_cons, eventsList, ih]
    rfl

theorem nodupKeysList_iff (xs : List (JsonTree κ σ)) :
    NodupKeysList xs ↔ ∀ x ∈ xs, x.NodupKeys := by
  induction xs with
  | nil => simp [NodupKeysList]
  | cons x xs ih => rw [NodupKeysList, ih, List.forall_mem_cons]

end JsonTree

/-! ## The reader -/

/-- A container that is still open, with what it contains so far. -/
inductive JsonFrame (κ σ : Type)
  | array (xs : List (JsonTree κ σ))
  /-- The key, if any, is the one that waits for its value. -/
  | object (ms : List (κ × JsonTree κ σ)) (pending : Option κ)

/-- **A reader of events**: the open containers from the innermost on, and the
root once it is complete. -/
structure JsonReader (κ σ : Type) where
  stack : List (JsonFrame κ σ)
  root : Option (JsonTree κ σ)

namespace JsonReader

/-- A reader before the first event. -/
def start : JsonReader κ σ := ⟨[], none⟩

/-- A complete value, where one is expected: as the root, in an array, or
after a key. -/
def add (t : JsonTree κ σ) : JsonReader κ σ → Option (JsonReader κ σ)
  | ⟨[], none⟩ => some ⟨[], some t⟩
  | ⟨.array xs :: fs, r⟩ => some ⟨.array (xs ++ [t]) :: fs, r⟩
  | ⟨.object ms (some k) :: fs, r⟩ => some ⟨.object (ms ++ [(k, t)]) none :: fs, r⟩
  | _ => none

/-- Whether a value is expected. -/
def expectsValue : JsonReader κ σ → Bool
  | ⟨[], none⟩ => true
  | ⟨.array _ :: _, _⟩ => true
  | ⟨.object _ (some _) :: _, _⟩ => true
  | _ => false

/-- The beginning of a container. -/
def begin (f : JsonFrame κ σ) (s : JsonReader κ σ) : Option (JsonReader κ σ) :=
  if s.expectsValue then some ⟨f :: s.stack, s.root⟩ else none

/-- The beginning of an expected container opens it. -/
theorem begin_of_expectsValue {s : JsonReader κ σ} (h : s.expectsValue = true)
    (f : JsonFrame κ σ) : s.begin f = some ⟨f :: s.stack, s.root⟩ := if_pos h

variable [DecidableEq κ]

/-- One event. -/
def step (s : JsonReader κ σ) : JsonEvent κ σ → Option (JsonReader κ σ)
  | .beginArray => s.begin (.array [])
  | .beginObject => s.begin (.object [] none)
  | .scalar v => s.add (.scalar v)
  | .endArray =>
    match s.stack with
    | .array xs :: fs => add (.array xs) ⟨fs, s.root⟩
    | _ => none
  | .endObject =>
    match s.stack with
    | .object ms none :: fs => add (.object ms) ⟨fs, s.root⟩
    | _ => none
  | .key k =>
    match s.stack with
    | .object ms none :: fs =>
      if k ∈ ms.map Prod.fst then none else some ⟨.object ms (some k) :: fs, s.root⟩
    | _ => none

/-- A sequence of events. -/
def run (s : JsonReader κ σ) : List (JsonEvent κ σ) → Option (JsonReader κ σ)
  | [] => some s
  | e :: es => (s.step e).bind (fun s' => s'.run es)

end JsonReader

variable [DecidableEq κ]

/-- **The document that a sequence of events denotes**, if it is well formed:
every container is closed in the end, and the root is there. -/
def denote (es : List (JsonEvent κ σ)) : Option (JsonTree κ σ) :=
  match JsonReader.start.run es with
  | some ⟨[], some t⟩ => some t
  | _ => none

namespace JsonReader

/-- A key that the open object does not have waits for its value. -/
theorem step_key_of_notMem {ms : List (κ × JsonTree κ σ)} {k : κ} (hk : k ∉ ms.map Prod.fst)
    (fs : List (JsonFrame κ σ)) (r : Option (JsonTree κ σ)) :
    step ⟨.object ms none :: fs, r⟩ (.key k) = some ⟨.object ms (some k) :: fs, r⟩ := if_neg hk

mutual
/-- **Reading the events of a document adds the document**, wherever a value
is expected. -/
theorem run_events (t : JsonTree κ σ) (ht : t.NodupKeys) (s : JsonReader κ σ)
    (hs : s.expectsValue = true) (rest : List (JsonEvent κ σ)) :
    s.run (t.events ++ rest) = (s.add t).bind (fun s' => s'.run rest) := by
  cases t with
  | scalar v => rfl
  | array xs =>
    rw [JsonTree.events, List.cons_append, List.append_assoc, run]
    show (s.begin (.array [])).bind _ = _
    rw [begin_of_expectsValue hs, Option.bind_some, run_eventsList xs ht [] s.stack s.root]
    rfl
  | object ms =>
    rw [JsonTree.events, List.cons_append, List.append_assoc, run]
    show (s.begin (.object [] none)).bind _ = _
    rw [begin_of_expectsValue hs, Option.bind_some,
      run_eventsMembers ms ht.2 [] (by simpa using ht.1) s.stack s.root]
    rfl

/-- Reading the events of elements appends them to the open array. -/
theorem run_eventsList (xs : List (JsonTree κ σ)) (hxs : JsonTree.NodupKeysList xs)
    (ys : List (JsonTree κ σ)) (fs : List (JsonFrame κ σ)) (r : Option (JsonTree κ σ))
    (rest : List (JsonEvent κ σ)) :
    run ⟨.array ys :: fs, r⟩ (JsonTree.eventsList xs ++ rest)
      = run ⟨.array (ys ++ xs) :: fs, r⟩ rest := by
  cases xs with
  | nil => rw [List.append_nil]; rfl
  | cons x xs =>
    rw [JsonTree.eventsList, List.append_assoc, run_events x hxs.1 _ rfl]
    show run ⟨.array (ys ++ [x]) :: fs, r⟩ _ = _
    rw [run_eventsList xs hxs.2, List.append_assoc]
    rfl

/-- Reading the events of members appends them to the open object. -/
theorem run_eventsMembers (ms : List (κ × JsonTree κ σ)) (hms : JsonTree.NodupKeysMembers ms)
    (ns : List (κ × JsonTree κ σ)) (hkeys : ((ns ++ ms).map Prod.fst).Nodup)
    (fs : List (JsonFrame κ σ)) (r : Option (JsonTree κ σ)) (rest : List (JsonEvent κ σ)) :
    run ⟨.object ns none :: fs, r⟩ (JsonTree.eventsMembers ms ++ rest)
      = run ⟨.object (ns ++ ms) none :: fs, r⟩ rest := by
  cases ms with
  | nil => rw [List.append_nil]; rfl
  | cons m ms =>
    obtain ⟨k, x⟩ := m
    have hk : k ∉ ns.map Prod.fst := by
      intro hmem
      rw [List.map_append, List.nodup_append] at hkeys
      exact hkeys.2.2 k hmem k (List.mem_cons_self ..) rfl
    rw [JsonTree.eventsMembers, List.cons_append, List.append_assoc, run,
      step_key_of_notMem hk, Option.bind_some, run_events x hms.1 _ rfl]
    show run ⟨.object (ns ++ [(k, x)]) none :: fs, r⟩ _ = _
    have hsplit : ns ++ (k, x) :: ms = (ns ++ [(k, x)]) ++ ms := by rw [List.append_assoc]; rfl
    rw [run_eventsMembers ms hms.2 (ns ++ [(k, x)]) (by rw [← hsplit]; exact hkeys), ← hsplit]
end

end JsonReader

/-- **The events of a document denote it.** -/
theorem denote_events (t : JsonTree κ σ) (ht : t.NodupKeys) : denote t.events = some t := by
  have h := JsonReader.run_events t ht JsonReader.start rfl []
  rw [List.append_nil] at h
  rw [denote, h]
  rfl

end JsonEvents
