import QuorumGateway.Message.Signed
import QuorumGateway.Proofs.Json.Reading
import QuorumGateway.Reply
/-!
Messages and replies as texts. A message that has been read is read back from what is written for it, whatever the text
was that it was read from: fields in any order or as an array, fields that are left out, and fields that nobody knows.
Each structure is a codec where its parts are (`Body.codec`, `Message.codec`, `Reply.codec`); a payload may nest less
deeply the further in it stands, and it is written where it was read.

- `codec_round_trip`: what is read off a text, written and read again is the same, for messages and for replies.
-/

namespace QuorumGateway

open Decode (Codec)

/-! ## Bodies -/

namespace Body

variable {o inside : Origin}

theorem keeps_payload (o : Origin) : record.Keeps o fun b => b.payload.Fits o := by
  intro f hf d b b' hd hb hread
  simp only [record, List.mem_cons, List.not_mem_nil, or_false] at hf
  -- the payload is the last field; the others leave it alone
  rcases hf with rfl | rfl | rfl | rfl | rfl <;> obtain ⟨v, hv, rfl⟩ := map_eq_ok.1 hread
  · exact hb
  · exact hb
  · exact hb
  · exact hb
  · exact (Decode.json_codec o).fits hv hd

theorem numbers_toJson (b : Body) : b.toJson.numbers = b.payload.numbers := by
  simp [toJson, Json.numbers, Json.numbersOfMembers]

/-- a body is read back where its payload fits -/
theorem codec (hinside : o.enter = .ok inside) : Codec o read toJson fun b => b.payload.Fits inside where
  fits := by
    intro d b hread hd
    apply Decode.Record.read_keeps hinside (keeps_payload inside) _ hd hread
    trivial
  inRange := by
    intro b hb
    rw [numbers_toJson]
    exact (Decode.json_codec inside).inRange hb
  reads := by
    intro b hb
    have hpayload := (Decode.json_codec inside).reads hb
    rw [id] at hpayload
    simp only [read, Decode.Record.read, toJson, Draft.ofJson, Draft.ofMembers, hinside, ok_bind, record,
      Decode.Record.readMembers]
    simp [Decode.Field.of, Decode.Field.answersTo, Decode.Record.lacking?, Decode.string, Decode.close, Except.map,
      ok_bind, hpayload, pure, Except.pure]

end Body

/-! ## Messages -/

namespace Message

variable {o inside within : Origin}

theorem keeps_payload (hwithin : o.enter = .ok within) : record.Keeps o fun m => m.body.payload.Fits within := by
  intro f hf d m m' hd hm hread
  simp only [record, List.mem_cons, List.not_mem_nil, or_false] at hf
  rcases hf with rfl | rfl <;> obtain ⟨v, hv, rfl⟩ := map_eq_ok.1 hread
  · exact (Body.codec hwithin).fits hv hd
  · exact hm

theorem numbers_toJson (m : Message) : m.toJson.numbers = m.body.payload.numbers := by
  simp [toJson, Json.numbers, Json.numbersOfMembers, Body.numbers_toJson]

/-- a message is read back where its payload fits, two levels further in -/
theorem codec (hinside : o.enter = .ok inside) (hwithin : inside.enter = .ok within) :
    Codec o read toJson fun m => m.body.payload.Fits within where
  fits := by
    intro d m hread hd
    apply Decode.Record.read_keeps hinside (keeps_payload hwithin) _ hd hread
    trivial
  inRange := by
    intro m hm
    rw [numbers_toJson]
    exact (Decode.json_codec within).inRange hm
  reads := by
    intro m hm
    have hbody := (Body.codec hwithin).reads hm
    simp only [read, Decode.Record.read, toJson, Draft.ofJson, Draft.ofMembers, hinside, ok_bind, record,
      Decode.Record.readMembers]
    simp [Decode.Field.of, Decode.Field.answersTo, Decode.Record.lacking?, Decode.string, Decode.close, Except.map,
      ok_bind, hbody, pure, Except.pure]

end Message

/-! ## Replies -/

theorem ErrorCode.read_text (o : Origin) (c : ErrorCode) : ErrorCode.read o (.string (some c.text)) = .ok c := by
  cases c <;> rfl

namespace Reply

variable {o inside within deep : Origin}

theorem keeps_payload (hwithin : o.enter = .ok within) (hdeep : within.enter = .ok deep) :
    record.Keeps o fun r => ∀ m ∈ r.message, m.body.payload.Fits deep := by
  intro f hf d r r' hd hr hread
  simp only [record, List.mem_cons, List.not_mem_nil, or_false] at hf
  rcases hf with rfl | rfl | rfl <;> obtain ⟨v, hv, rfl⟩ := map_eq_ok.1 hread
  · exact (Message.codec hwithin hdeep).optional (fun _ => rfl) |>.fits hv hd
  · exact hr
  · exact hr

theorem toJson_eq (r : Reply) :
    r.toJson = .object [("msg", Decode.written Message.toJson r.message), ("err_code", .string r.code.text),
      ("err_msg", .string r.reason)] := by
  unfold toJson
  cases r.message <;> rfl

theorem numbers_toJson (r : Reply) : r.toJson.numbers = (Decode.written Message.toJson r.message).numbers := by
  simp [toJson_eq, Json.numbers, Json.numbersOfMembers]

/-- a reply is read back where the payload of its message fits, three levels further in -/
theorem codec (hinside : o.enter = .ok inside) (hwithin : inside.enter = .ok within) (hdeep : within.enter = .ok deep) :
    Codec o read toJson fun r => ∀ m ∈ r.message, m.body.payload.Fits deep where
  fits := by
    intro d r hread hd
    apply Decode.Record.read_keeps hinside (keeps_payload hwithin hdeep) _ hd hread
    intro m hm
    cases hm
  inRange := by
    intro r hr
    rw [numbers_toJson]
    exact ((Message.codec hwithin hdeep).optional fun _ => rfl).inRange hr
  reads := by
    intro r hr
    have hmessage := ((Message.codec hwithin hdeep).optional fun _ => rfl).reads hr
    simp only [read, Decode.Record.read, toJson_eq, Draft.ofJson, Draft.ofMembers, hinside, ok_bind, record,
      Decode.Record.readMembers]
    simp [Decode.Field.of, Decode.Field.answersTo, Decode.Record.lacking?, Decode.string, Decode.close, Except.map,
      ok_bind, hmessage, ErrorCode.read_text, pure, Except.pure]

end Reply

/-! ## Texts -/

/-- the text of every number in a document that is not whole is read as that number, and so as no whole number -/
def Json.FloatsReadBack (v : Json) : Prop :=
  ∀ x, .float x ∈ v.numbers → Json.ofText (Json.float x).compact = .ok (.float x)

namespace Message

/-- **What is read as a message, or as a reply, is the same when it is written and read again**: a message therefore
keeps the bytes that are signed and what every check says of it. It is asked of the numbers in the payload that the text
of each is read as that number; a number with a large exponent can be rounded twice on its way in, and come back as its
neighbour. -/
theorem codec_round_trip :
    (∀ (s : String) (m : Message), ofText s = .ok m → m.body.payload.FloatsReadBack →
      ofText m.text = .ok m ∧ ∀ m', ofText m.text = .ok m' →
        m'.body.rawBytes = m.body.rawBytes ∧ ∀ S, m'.check S = m.check S) ∧
    (∀ (s : String) (r : Reply), Reply.ofText s = .ok r → (∀ m ∈ r.message, m.body.payload.FloatsReadBack) →
      Reply.ofText r.text = .ok r) := by
  constructor
  · intro s m hread hfloats
    have hsame : ofText m.text = .ok m := by
      apply (codec (o := .document) rfl rfl).round_trip hread
      rw [numbers_toJson]
      exact hfloats
    refine ⟨hsame, ?_⟩
    intro m' hread'
    rw [hsame] at hread'
    cases hread'
    exact ⟨rfl, fun S => rfl⟩
  · intro s r hread hfloats
    apply (Reply.codec (o := .document) rfl rfl rfl).round_trip hread
    rw [Reply.numbers_toJson]
    cases hmessage : r.message with
    | none => simp [Decode.written, Json.numbers]
    | some m =>
      rw [Decode.written, numbers_toJson]
      exact hfloats m hmessage

/-! ## A message in other forms -/

def half : Decimal.Binary64 := ⟨0x3FE0000000000000⟩

theorem readsBack_half : Number.ReadsBack (.float half) := by
  have htext : Number.text (.float half) = "0.5" := by decide +kernel
  refine ⟨⟨false, [0], some [5], none⟩, ?_, ?_⟩
  · rw [htext]
    rfl
  · simp only [Lexeme.number?, Lexeme.float?, Lexeme.gather]
    rw [Lexeme.scaled]
    decide +kernel

/-- a message with the names of its payload in order -/
def ordered : Message :=
  ⟨⟨"m", "secrets_list", "", "0xab", .object [("a", .null), ("b", .array [.int 1, .float half])]⟩, ""⟩

/-- the message as an array of its fields, with the names of its payload in another order -/
def asArray : Json :=
  .array [.array [.string "m", .string "secrets_list", .string "", .string "0xab",
    .object [("b", .array [.int 1, .float half]), ("a", .null)]]]

/-- a reply with that message, a field that nobody knows, and a code that is written as an object -/
def asReply : Json :=
  .object [("err_msg", .string ""), ("seen", .bool true), ("msg", asArray), ("err_code", .object [("no_error", .null)])]

theorem numbers_asArray : asArray.numbers = [.int 1, .float half] := by decide

theorem numbers_asReply : asReply.numbers = [.int 1, .float half] := by decide

theorem readsBack_of_mem {n : Number} (hn : n ∈ [.int 1, .float half]) : n.ReadsBack := by
  rcases List.mem_pair.1 hn with rfl | rfl
  · exact Number.readsBack_int ⟨by decide, by decide⟩
  · exact readsBack_half

theorem floatsReadBack_ordered : ordered.body.payload.FloatsReadBack := by
  intro x hx
  apply Decode.ofText_compact _ rfl
  intro n hn
  obtain rfl : n = .float x := by simpa [Json.float, Json.numbers] using hn
  exact readsBack_of_mem hx

theorem codec_round_trip_ordered :
    asArray.compact = "[[\"m\",\"secrets_list\",\"\",\"0xab\",\x7b\"b\":[1,0.5],\"a\":null\x7d]]" ∧
      ofText asArray.compact = .ok ordered ∧ ofText ordered.text = .ok ordered ∧
      Reply.ofText asReply.compact = .ok (.success ordered) ∧
      Reply.ofText (Reply.success ordered).text = .ok (.success ordered) := by
  have hmessage : ofText asArray.compact = .ok ordered :=
    Decode.ofText_compact (fun n hn => readsBack_of_mem (numbers_asArray ▸ hn)) rfl
  have hreply : Reply.ofText asReply.compact = .ok (.success ordered) :=
    Decode.ofText_compact (fun n hn => readsBack_of_mem (numbers_asReply ▸ hn)) rfl
  refine ⟨by decide +kernel, hmessage, ?_, hreply, ?_⟩
  · exact (codec_round_trip.1 _ ordered hmessage floatsReadBack_ordered).1
  · apply codec_round_trip.2 _ (.success ordered) hreply
    intro m hm
    cases hm
    exact floatsReadBack_ordered

end Message

end QuorumGateway
