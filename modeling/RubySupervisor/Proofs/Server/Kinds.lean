import RubySupervisor.Proofs.Text.Writing
import RubySupervisor.Transport.Channel

/-!
# Kinds of messages

A message with an identifier and a method is a request, one with an identifier alone a response, and
one with a method alone a notification. A reader does not look for this but takes the first kind
whose fields it can read. So a body that has both, and one of them in a form that no request has, may
still be read: as a response without its method, or as a notification without its identifier.
-/

namespace RubySupervisor

namespace Json

/-- The values of the members of a name, in order. -/
def valuesOf (members : List (String × Json)) (name : String) : List Json :=
  (members.filter (·.1 = name)).map (·.2)

/-- There is one member of a name, and its value is of a kind. -/
def One (members : List (String × Json)) (name : String) (P : Json → Prop) : Prop :=
  ∃ j, valuesOf members name = [j] ∧ P j

/-- There is no member of a name, or one with a value of a kind. -/
def AtMostOne (members : List (String × Json)) (name : String) (P : Json → Prop) : Prop :=
  valuesOf members name = [] ∨ One members name P

/-- There is a member of a name. -/
def Has (members : List (String × Json)) (name : String) : Prop := valuesOf members name ≠ []

theorem One.has {members : List (String × Json)} {name : String} {P : Json → Prop}
    (h : One members name P) : Has members name := by
  obtain ⟨j, hj, -⟩ := h
  simp [Has, hj]

theorem One.length_le {members : List (String × Json)} {name : String} {P : Json → Prop}
    (h : One members name P) : (valuesOf members name).length ≤ 1 := by
  obtain ⟨j, hj, -⟩ := h
  simp [hj]

theorem AtMostOne.length_le {members : List (String × Json)} {name : String} {P : Json → Prop}
    (h : AtMostOne members name P) : (valuesOf members name).length ≤ 1 := by
  rcases h with hnone | hone
  · simp [hnone]
  · exact hone.length_le

namespace Record

variable {names : List String} {name : String} {members : List (String × Json)} {r : Record}

theorem distinct_iff {l : List String} : distinct l = true ↔ l.Nodup := by
  induction l with
  | nil => simp [distinct]
  | cons name rest ih => simp [distinct, ih]

theorem length_valuesOf (members : List (String × Json)) (name : String) :
    (valuesOf members name).length = (members.map (·.1)).count name := by
  rw [List.count, List.countP_map, List.countP_eq_length_filter, valuesOf, List.length_map]
  rfl

/-- Of members that are no field, no values are left. -/
theorem valuesOf_filter_contains (names : List String) (members : List (String × Json))
    (name : String) :
    valuesOf (members.filter (names.contains ·.1)) name =
      if name ∈ names then valuesOf members name else [] := by
  split
  · rename_i hname
    rw [valuesOf, List.filter_filter, valuesOf]
    congr 2
    funext member
    by_cases hmember : member.1 = name <;> simp [hmember, hname]
  · rename_i hname
    simp only [valuesOf, List.map_eq_nil_iff, List.filter_eq_nil_iff, List.mem_filter]
    rintro member ⟨-, hmember⟩ hsame
    obtain rfl : member.1 = name := by simpa using hsame
    exact hname (by simpa using hmember)

/-- An object is a record if none of its fields is repeated. -/
theorem ofJson?_object_eq_some_iff :
    ofJson? names (object members) = some r ↔
      (∀ name ∈ names, (valuesOf members name).length ≤ 1) ∧
        r = ⟨false, members.filter (names.contains ·.1)⟩ := by
  have hdistinct : distinct ((members.filter (names.contains ·.1)).map (·.1)) = true ↔
      ∀ name ∈ names, (valuesOf members name).length ≤ 1 := by
    rw [distinct_iff, List.nodup_iff_count]
    refine forall_congr' fun name => ?_
    rw [← length_valuesOf, valuesOf_filter_contains]
    by_cases hname : name ∈ names <;> simp [hname]
  rw [ofJson?, ← hdistinct]
  split
  · rename_i hfields
    exact ⟨fun h => ⟨hfields, (Option.some.inj h).symm⟩, fun h => congrArg some h.2.symm⟩
  · rename_i hfields
    constructor
    · intro h
      cases h
    · intro h
      exact absurd h.1 hfields

theorem field?_of_ofJson? (h : ofJson? names (object members) = some r) (hname : name ∈ names) :
    r.field? name = (valuesOf members name).head? := by
  obtain ⟨-, rfl⟩ := ofJson?_object_eq_some_iff.1 h
  rw [field?, List.find?_filter, valuesOf, List.head?_map, List.head?_filter]
  congr 2
  funext member
  by_cases hmember : member.1 = name <;> simp [hmember, hname]

/-- A field that must be there is read from the one member of its name. -/
theorem required_isSome_iff {α : Type} {decode : Json → Option α}
    (h : ofJson? names (object members) = some r) (hname : name ∈ names) :
    (r.required name decode).isSome ↔ One members name fun j => (decode j).isSome := by
  have hone := (ofJson?_object_eq_some_iff.1 h).1 name hname
  rw [required, field?_of_ofJson? h hname]
  rcases hvalues : valuesOf members name with _ | ⟨j, _ | ⟨j', rest⟩⟩
  · simp [One, hvalues]
  · simp [One, hvalues]
  · simp [hvalues] at hone

/-- A field that may be missing is read if there is one member of its name at most. -/
theorem defaulted_isSome_iff {α : Type} {absent : α} {decode : Json → Option α}
    (h : ofJson? names (object members) = some r) (hname : name ∈ names) :
    (r.defaulted name absent decode).isSome ↔
      AtMostOne members name fun j => (decode j).isSome := by
  have hone := (ofJson?_object_eq_some_iff.1 h).1 name hname
  rw [defaulted, field?_of_ofJson? h hname]
  rcases hvalues : valuesOf members name with _ | ⟨j, _ | ⟨j', rest⟩⟩
  · simp [AtMostOne, hvalues]
  · simp [AtMostOne, One, hvalues]
  · simp [hvalues] at hone

/-- An optional field may be missing, or `null`. -/
theorem optionalOrAbsent_isSome_iff {α : Type} {decode : Json → Option α}
    (h : ofJson? names (object members) = some r) (hname : name ∈ names) :
    (r.optionalOrAbsent name decode).isSome ↔
      AtMostOne members name fun j => j = null ∨ (decode j).isSome := by
  have hone := (ofJson?_object_eq_some_iff.1 h).1 name hname
  rw [optionalOrAbsent, field?_of_ofJson? h hname]
  rcases hvalues : valuesOf members name with _ | ⟨j, _ | ⟨j', rest⟩⟩
  · simp [AtMostOne, hvalues]
  · cases j <;> simp [AtMostOne, One, hvalues]
  · simp [hvalues] at hone

/-- An object is read as a record if its fields can be read, none of which is repeated then. -/
theorem bind_isSome_iff {α : Type} {read : Record → Option α} {P : Prop}
    (hread : ∀ r, ofJson? names (object members) = some r → ((read r).isSome ↔ P))
    (hfields : P → ∀ name ∈ names, (valuesOf members name).length ≤ 1) :
    ((ofJson? names (object members)).bind read).isSome ↔ P := by
  cases hrecord : ofJson? names (object members) with
  | none =>
    have hnot : ¬ P := by
      intro h
      cases hrecord.symm.trans (ofJson?_object_eq_some_iff.2 ⟨hfields h, rfl⟩)
    simpa using hnot
  | some r => exact hread r hrecord

end Record

end Json

namespace Message

open Json (Record One AtMostOne Has)

/-- What makes an object a request: one identifier, one method, and parameters once at most. -/
structure IsRequest (members : List (String × Json)) : Prop where
  id : One members "id" fun j => (RequestId.ofJson? j).isSome
  method : One members "method" fun j => j.text?.isSome
  params : AtMostOne members "params" fun _ => True

/-- What makes an object readable as a response: one identifier, and a result and an error once at
most. -/
structure IsResponse (members : List (String × Json)) : Prop where
  id : One members "id" fun j => (RequestId.ofJson? j).isSome
  result : AtMostOne members "result" fun _ => True
  error : AtMostOne members "error" fun j => j = .null ∨ (ResponseError.ofJson? j).isSome

/-- What makes an object readable as a notification: one method, and parameters once at most. -/
structure IsNotification (members : List (String × Json)) : Prop where
  method : One members "method" fun j => j.text?.isSome
  params : AtMostOne members "params" fun _ => True

variable {members : List (String × Json)}

/-- What is read in two parts is read if both parts are. -/
theorem isSome_bind_iff {α β : Type} {part : Option α} {rest : α → Option β} {P : Prop}
    (hrest : ∀ a, (rest a).isSome ↔ P) : (part.bind rest).isSome ↔ part.isSome ∧ P := by
  cases part with
  | none => simp
  | some a => simp [hrest a]

theorem requestOf?_isSome_iff :
    (requestOf? (.object members)).isSome ↔ IsRequest members := by
  refine Record.bind_isSome_iff (fun r hrecord => ?_) fun h => by
    simp [h.id.length_le, h.method.length_le, h.params.length_le]
  have hparts : IsRequest members ↔ (r.required "id" RequestId.ofJson?).isSome ∧
      (r.required "method" Json.text?).isSome ∧
        (r.defaulted "params" .null fun params => some params.canonical).isSome ∧ True := by
    rw [Record.required_isSome_iff hrecord (by decide),
      Record.required_isSome_iff hrecord (by decide), Record.defaulted_isSome_iff hrecord (by decide)]
    simp only [Option.isSome_some]
    exact ⟨fun h => ⟨h.id, h.method, h.params, trivial⟩, fun h => ⟨h.1, h.2.1, h.2.2.1⟩⟩
  rw [hparts]
  exact isSome_bind_iff fun _ => isSome_bind_iff fun _ => isSome_bind_iff fun _ => by simp

theorem responseOf?_isSome_iff :
    (responseOf? (.object members)).isSome ↔ IsResponse members := by
  refine Record.bind_isSome_iff (fun r hrecord => ?_) fun h => by
    simp [h.id.length_le, h.result.length_le, h.error.length_le]
  have hparts : IsResponse members ↔ (r.required "id" RequestId.ofJson?).isSome ∧
      (r.optionalOrAbsent "result" fun result => some result.canonical).isSome ∧
        (r.optionalOrAbsent "error" ResponseError.ofJson?).isSome ∧ True := by
    rw [Record.required_isSome_iff hrecord (by decide),
      Record.optionalOrAbsent_isSome_iff hrecord (by decide),
      Record.optionalOrAbsent_isSome_iff hrecord (by decide)]
    simp only [Option.isSome_some, or_true]
    exact ⟨fun h => ⟨h.id, h.result, h.error, trivial⟩, fun h => ⟨h.1, h.2.1, h.2.2.1⟩⟩
  rw [hparts]
  exact isSome_bind_iff fun _ => isSome_bind_iff fun _ => isSome_bind_iff fun _ => by simp

theorem notificationOf?_isSome_iff :
    (notificationOf? (.object members)).isSome ↔ IsNotification members := by
  refine Record.bind_isSome_iff (fun r hrecord => ?_) fun h => by
    simp [h.method.length_le, h.params.length_le]
  have hparts : IsNotification members ↔ (r.required "method" Json.text?).isSome ∧
      (r.defaulted "params" .null fun params => some params.canonical).isSome ∧ True := by
    rw [Record.required_isSome_iff hrecord (by decide), Record.defaulted_isSome_iff hrecord (by decide)]
    simp only [Option.isSome_some]
    exact ⟨fun h => ⟨h.method, h.params, trivial⟩, fun h => ⟨h.1, h.2.1⟩⟩
  rw [hparts]
  exact isSome_bind_iff fun _ => isSome_bind_iff fun _ => by simp

/-- The first kind is taken that an object can be read as. -/
theorem ofJson?_object_cases (members : List (String × Json)) :
    (IsRequest members ∧ ∃ r, ofJson? (.object members) = some (request r)) ∨
      (¬ IsRequest members ∧ IsResponse members ∧
        ∃ r, ofJson? (.object members) = some (response r)) ∨
      (¬ IsRequest members ∧ ¬ IsResponse members ∧ IsNotification members ∧
        ∃ n, ofJson? (.object members) = some (notification n)) ∨
      ¬ IsRequest members ∧ ¬ IsResponse members ∧ ¬ IsNotification members ∧
        ofJson? (.object members) = none := by
  rw [← requestOf?_isSome_iff, ← responseOf?_isSome_iff, ← notificationOf?_isSome_iff, ofJson?]
  cases requestOf? (.object members) with
  | some r => exact .inl ⟨rfl, r, rfl⟩
  | none =>
    cases responseOf? (.object members) with
    | some r => exact .inr (.inl ⟨by simp, rfl, r, rfl⟩)
    | none =>
      cases notificationOf? (.object members) with
      | some n => exact .inr (.inr (.inl ⟨by simp, by simp, rfl, n, rfl⟩))
      | none => exact .inr (.inr (.inr ⟨by simp, by simp, by simp, rfl⟩))

/-- The kind of a message is the one that is told by its identifier and its method. -/
def Suits (members : List (String × Json)) : Message → Prop
  | request _ => Has members "id" ∧ Has members "method"
  | response _ => Has members "id" ∧ ¬ Has members "method"
  | notification _ => Has members "method" ∧ ¬ Has members "id"

/-- An object with an identifier and a method is misread: it is no request, as one of its fields is
repeated or has a value that no request has there, but it can be read as another kind. -/
structure Misread (members : List (String × Json)) : Prop where
  id : Has members "id"
  method : Has members "method"
  not_request : ¬ IsRequest members
  other : IsResponse members ∨ IsNotification members

/-- An object is read as the kind that its identifier and its method tell unless it is misread. -/
theorem forall_suits_iff_not_misread :
    (∀ m, ofJson? (.object members) = some m → m.Suits members) ↔ ¬ Misread members := by
  rcases ofJson?_object_cases members with ⟨hrequest, r, hread⟩ | ⟨hrequest, hresponse, r, hread⟩ |
    ⟨hrequest, hresponse, hnotification, n, hread⟩ | ⟨hrequest, hresponse, hnotification, hread⟩
  · have hsuits : (request r).Suits members := ⟨hrequest.id.has, hrequest.method.has⟩
    have hnot : ¬ Misread members := fun h => h.not_request hrequest
    simpa [hread, hnot] using hsuits
  · have hmisread : Misread members ↔ Has members "method" :=
      ⟨fun h => h.method, fun h => ⟨hresponse.id.has, h, hrequest, .inl hresponse⟩⟩
    simp [hread, hmisread, Suits, hresponse.id.has]
  · have hmisread : Misread members ↔ Has members "id" :=
      ⟨fun h => h.id, fun h => ⟨h, hnotification.method.has, hrequest, .inr hnotification⟩⟩
    simp [hread, hmisread, Suits, hnotification.method.has]
  · have hnot : ¬ Misread members := fun h => h.other.elim hresponse hnotification
    simp [hread, hnot]

end Message

/-- The document that a body holds, its members as written. -/
def Frame.document? (body : List UInt8) : Option Json :=
  (Text.ofUtf8? ⟨body.toArray⟩).bind fun s => Json.read? s.toList

theorem Frame.decode?_eq (body : List UInt8) :
    decode? body = (document? body).bind Message.ofJson? := by
  rw [decode?, document?, Option.bind_assoc]
  rfl

/-- **Theorem (kinds).** Whatever object a body holds, the body is read as the kind that the
identifier and the method of the object tell, exactly unless the object is misread. Then a body with
a method resolves no request either. -/
theorem kinds_told_iff_not_misread {body : List UInt8} {members : List (String × Json)}
    (hbody : Frame.document? body = some (.object members)) :
    ((∀ m, Frame.decode? body = some m → m.Suits members) ↔ ¬ Message.Misread members) ∧
      (¬ Message.Misread members → Json.Has members "method" → ∀ c : Channel,
        (c.route body).pending = c.pending ∧ (c.route body).resolved = c.resolved) := by
  have hdecode : Frame.decode? body = Message.ofJson? (.object members) := by
    rw [Frame.decode?_eq, hbody, Option.bind_some]
  have htold : (∀ m, Message.ofJson? (.object members) = some m → m.Suits members) ↔
      ¬ Message.Misread members := Message.forall_suits_iff_not_misread
  rw [hdecode]
  refine ⟨htold, fun hnot hmethod c => ?_⟩
  have hsuits := htold.2 hnot
  rw [Channel.route, hdecode]
  rcases hread : Message.ofJson? (.object members) with _ | ⟨r⟩ | ⟨r⟩ | ⟨n⟩
  · exact ⟨rfl, rfl⟩
  · exact ⟨rfl, rfl⟩
  · exact absurd hmethod (hsuits _ hread).2
  · exact ⟨rfl, rfl⟩

/-- The body of a text that writes a document holds that document. -/
theorem Frame.document?_utf8 {s : String} {j : Json} (h : Json.read? s.toList = some j) :
    document? (Text.utf8 s) = some j := by
  rw [document?, Text.ofUtf8?_utf8, Option.bind_some, h]

/-- A request of a server. -/
def progressText : String :=
  "\x7b\"jsonrpc\":\"2.0\",\"id\":7,\"method\":\"window/workDoneProgress/create\"\x7d"

/-- The members of the request. -/
def progressMembers : List (String × Json) :=
  [("jsonrpc", .text "2.0"), ("id", .int 7), ("method", .text "window/workDoneProgress/create")]

/-- The request is taken for one, and resolves nothing. -/
theorem progress_told :
    Frame.document? (Text.utf8 progressText) = some (.object progressMembers) ∧
      (∀ m, Frame.decode? (Text.utf8 progressText) = some m → m.Suits progressMembers) ∧
      ∀ c : Channel, (c.route (Text.utf8 progressText)).pending = c.pending ∧
        (c.route (Text.utf8 progressText)).resolved = c.resolved := by
  have hbody : Frame.document? (Text.utf8 progressText) = some (.object progressMembers) :=
    Frame.document?_utf8 (by decide +kernel)
  have hrequest : Message.IsRequest progressMembers :=
    Message.requestOf?_isSome_iff.1 (by decide +kernel)
  have hnot : ¬ Message.Misread progressMembers := fun h => h.not_request hrequest
  obtain ⟨htold, hroute⟩ := kinds_told_iff_not_misread hbody
  exact ⟨hbody, htold.2 hnot, hroute hnot hrequest.method.has⟩

/-- The members of a request with an identifier beyond 32 bits. -/
def configurationMembers : List (String × Json) :=
  [("jsonrpc", .text "2.0"), ("id", .int 2147483648), ("method", .text "workspace/configuration")]

/-- A request with such an identifier is taken for a notification. -/
theorem not_always_told :
    ¬ ∀ (body : List UInt8) (members : List (String × Json)) (m : Message),
      Frame.document? body = some (.object members) → Frame.decode? body = some m →
        m.Suits members := by
  intro h
  have hbody : Frame.document? (Text.utf8 (Json.object configurationMembers).compact) =
      some (.object configurationMembers) := Frame.document?_utf8 (by decide +kernel)
  have hread : Frame.decode? (Text.utf8 (Json.object configurationMembers).compact) =
      some (.notification ⟨"workspace/configuration", .null⟩) := by
    rw [Frame.decode?_eq, hbody]
    decide +kernel
  have hid : Json.Has configurationMembers "id" := by
    simp [Json.Has, Json.valuesOf, configurationMembers]
  exact (h _ _ _ hbody hread).2 hid

/-- A response whose method is `null` is taken for a response. -/
example : Message.ofJson? (.object [("id", .int 1), ("method", .null), ("result", .int 5)]) =
    some (.response (.success (.number 1) (.int 5))) := by
  decide +kernel

end RubySupervisor
