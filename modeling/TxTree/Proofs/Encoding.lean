import Mathlib.Data.List.Basic
import TxTree.Json.Codec
import TxTree.Proofs.Writing

set_option relaxedAutoImplicit false
set_option autoImplicit false

/-!
# Encoded values are decoded again

A span, a severity, a kind or a diagnostic is encoded as a plain value, which is read from each of
its texts, and its decoder undoes its encoder. The offsets that are decoded fit into 64 bits, so
that every decoded value is one that can be encoded. What a record is decoded from are its fields
alone: an object gives them in any order and among other members, and an array gives them in their
places.

## Main definitions

* `TxTree.Json.Codec` — an encoder and a decoder, and `Codec.RoundTrips`, what ties them together.
* `TxTree.Json.SameFields` — values that give the same fields of a record.

## Main results

* `TxTree.Json.Codec.roundTrips` — the codecs of the library lead there and back.
* `TxTree.Json.fields?_congr` — a record is decoded from its fields alone.
* `TxTree.Json.Codec.decode?_span`, `TxTree.Json.Codec.decode?_diagnostic` — records are decoded
  from any text that gives their fields.
-/

namespace TxTree.Json

/-! ## Codecs -/

/-- An encoder and a decoder. -/
structure Codec (α : Type) where
  toJson : α → Json
  ofJson? : Json → Option α

namespace Codec

section RoundTrips

variable {α : Type} (C : Codec α)

/-- The encoding of a value. -/
def encode (a : α) : String := (C.toJson a).compact

/-- What a text is decoded to, if it is the text of a value that can be decoded. -/
def decode? (text : String) : Option α := (read? text).bind C.ofJson?

/-- **The round trip of a codec**, for values that satisfy `fits`. -/
structure RoundTrips (fits : α → Prop) : Prop where
  /-- A value is decoded from its encoding. -/
  decode?_encode : ∀ a, fits a → C.decode? (C.encode a) = some a
  /-- It is also decoded from the same value on several lines. -/
  decode?_pretty : ∀ a, fits a → C.decode? (C.toJson a).pretty = some a
  /-- Any text that can be decoded is decoded to a value that fits. -/
  fits_of_decode? : ∀ text a, C.decode? text = some a → fits a
  /-- The encoding of such a value is decoded to it and encoded as before. -/
  again : ∀ text a, C.decode? text = some a →
    C.decode? (C.encode a) = some a ∧ (C.decode? (C.encode a)).map C.encode = some (C.encode a)

variable {C} {fits : α → Prop}

/-- **A codec leads there and back** if its decoder undoes its encoder and gives only values that
fit. -/
lemma RoundTrips.of_ofJson?_toJson (hplain : ∀ a, (C.toJson a).isPlain = true)
    (hback : ∀ a, fits a → C.ofJson? (C.toJson a) = some a)
    (hfits : ∀ v a, C.ofJson? v = some a → fits a) : C.RoundTrips fits := by
  have hencode (a : α) (ha : fits a) : C.decode? (C.encode a) = some a := by
    rw [decode?, encode, read?_compact (hplain a), Option.bind_some, hback a ha]
  have hdecode (text : String) (a : α) (h : C.decode? text = some a) : fits a := by
    obtain ⟨v, -, hv⟩ := Option.bind_eq_some_iff.1 h
    exact hfits v a hv
  refine ⟨hencode, fun a ha => ?_, hdecode, fun text a h => ?_⟩
  · rw [decode?, read?_pretty (hplain a), Option.bind_some, hback a ha]
  · have ha := hencode a (hdecode text a h)
    exact ⟨ha, by rw [ha, Option.map_some]⟩

end RoundTrips

/-! ### The codecs of the library -/

/-- The codec of spans. -/
def span : Codec Span := ⟨Span.toJson, Span.ofJson?⟩

/-- The codec of severities. -/
def severity : Codec Severity := ⟨Severity.toJson, Severity.ofJson?⟩

/-- The codec of the kinds of tokens. -/
def tokenKind : Codec TokenKind := ⟨TokenKind.toJson, TokenKind.ofJson?⟩

/-- The codec of the kinds of nodes. -/
def nodeKind : Codec NodeKind := ⟨NodeKind.toJson, NodeKind.ofJson?⟩

/-- The codec of diagnostics. -/
def diagnostic : Codec Diagnostic := ⟨Diagnostic.toJson, Diagnostic.ofJson?⟩

end Codec

end TxTree.Json

namespace TxTree

open Json

/-! ## Offsets -/

lemma Json.toOffset?_eq_some_iff {v : Json} {n : Nat} :
    v.toOffset? = some n ↔ v = .number n ∧ n < Span.offsetBound := by
  cases v with
  | number m =>
    simp only [toOffset?, Option.ite_none_right_eq_some, Option.some_inj, Json.number.injEq]
    constructor
    · rintro ⟨h, rfl⟩
      exact ⟨rfl, h⟩
    · rintro ⟨rfl, h⟩
      exact ⟨h, rfl⟩
  | _ => simp [toOffset?]

/-- Whether the offsets of a span fit into 64 bits. -/
def Span.Fits (s : Span) : Prop := s.start < offsetBound ∧ s.stop < offsetBound

/-! ## Encoders and decoders -/

lemma TokenKind.ofJson?_toJson (k : TokenKind) : ofJson? k.toJson = some k :=
  ofTag?_tag k

lemma NodeKind.ofJson?_toJson (k : NodeKind) : ofJson? k.toJson = some k :=
  ofTag?_tag k

lemma Severity.ofJson?_toJson (s : Severity) : ofJson? s.toJson = some s := by
  cases s <;> decide

/-- A span is decoded from two offsets that fit. -/
lemma Span.ofJson?_eq_some_iff {v : Json} {s : Span} :
    ofJson? v = some s ↔
      v.fields? ["start", "end"] = some [.number s.start, .number s.stop] ∧ s.Fits := by
  constructor
  · intro h
    obtain ⟨fields, hfields, h⟩ := Option.bind_eq_some_iff.1 h
    split at h
    · simp only [Option.bind_eq_bind, Option.bind_eq_some_iff, toOffset?_eq_some_iff,
        Option.pure_def, Option.some_inj] at h
      obtain ⟨start, ⟨rfl, hstart⟩, stop, ⟨rfl, hstop⟩, rfl⟩ := h
      exact ⟨hfields, hstart, hstop⟩
    · exact nomatch h
  · rintro ⟨hfields, hstart, hstop⟩
    simp [ofJson?, hfields, toOffset?, hstart, hstop]

/-- A diagnostic is decoded from a span, a text and a severity. -/
lemma Diagnostic.ofJson?_eq_some_iff {v : Json} {d : Diagnostic} :
    ofJson? v = some d ↔ ∃ span severity,
      v.fields? ["span", "message", "severity"] = some [span, .string d.message, severity] ∧
        Span.ofJson? span = some d.span ∧ Severity.ofJson? severity = some d.severity := by
  constructor
  · intro h
    obtain ⟨fields, hfields, h⟩ := Option.bind_eq_some_iff.1 h
    split at h
    · next span message severity =>
      simp only [Option.bind_eq_bind, Option.bind_eq_some_iff, Option.pure_def,
        Option.some_inj] at h
      obtain ⟨s, hspan, text, htext, g, hseverity, rfl⟩ := h
      obtain rfl : message = .string text := by
        cases message <;> simp_all [toText?]
      exact ⟨span, severity, hfields, hspan, hseverity⟩
    · exact nomatch h
  · rintro ⟨span, severity, hfields, hspan, hseverity⟩
    simp [ofJson?, hfields, toText?, hspan, hseverity]

lemma Span.fields?_toJson (s : Span) :
    s.toJson.fields? ["start", "end"] = some [.number s.start, .number s.stop] := rfl

lemma Diagnostic.fields?_toJson (d : Diagnostic) :
    d.toJson.fields? ["span", "message", "severity"] =
      some [d.span.toJson, .string d.message, d.severity.toJson] := rfl

namespace Json.Codec

lemma roundTrips_span : span.RoundTrips Span.Fits :=
  .of_ofJson?_toJson (fun _ => rfl)
    (fun s hs => Span.ofJson?_eq_some_iff.2 ⟨s.fields?_toJson, hs⟩)
    (fun _ _ h => (Span.ofJson?_eq_some_iff.1 h).2)

lemma roundTrips_diagnostic : diagnostic.RoundTrips (·.span.Fits) := by
  refine .of_ofJson?_toJson (fun _ => rfl) (fun d hd => ?_) (fun v d h => ?_)
  · refine Diagnostic.ofJson?_eq_some_iff.2 ⟨_, _, d.fields?_toJson, ?_, ?_⟩
    · exact Span.ofJson?_eq_some_iff.2 ⟨d.span.fields?_toJson, hd⟩
    · exact d.severity.ofJson?_toJson
  · obtain ⟨span, severity, -, hspan, -⟩ := Diagnostic.ofJson?_eq_some_iff.1 h
    exact (Span.ofJson?_eq_some_iff.1 hspan).2

/-- **The codecs of the library lead there and back**: those of spans and diagnostics for offsets
that fit into 64 bits, and those of severities and kinds for all of them. -/
theorem roundTrips :
    span.RoundTrips Span.Fits ∧
    severity.RoundTrips (fun _ => True) ∧
    tokenKind.RoundTrips (fun _ => True) ∧
    nodeKind.RoundTrips (fun _ => True) ∧
    diagnostic.RoundTrips (·.span.Fits) := by
  refine ⟨roundTrips_span, ?_, ?_, ?_, roundTrips_diagnostic⟩
  · exact .of_ofJson?_toJson (fun _ => rfl) (fun s _ => s.ofJson?_toJson) fun _ _ _ => trivial
  · exact .of_ofJson?_toJson (fun _ => rfl) (fun k _ => k.ofJson?_toJson) fun _ _ _ => trivial
  · exact .of_ofJson?_toJson (fun _ => rfl) (fun k _ => k.ofJson?_toJson) fun _ _ _ => trivial

/-- Members out of order and others among them, a severity as an object, a span as an array, and a
pair of escapes for one character. -/
example : diagnostic.decode?
    "\x7b\"x\": [-1e3], \"severity\": \x7b\"error\": null\x7d,
      \"message\": \"\\ud83d\\uDE00\\/\", \"span\": [7, 3]\x7d" =
    some ⟨⟨7, 3⟩, "😀/", .error⟩ := by decide +kernel

end Json.Codec

/-! ## Records are their fields -/

namespace Json

/-- Values that give the same fields of these names: objects with the same members of these names,
in any order and among any others, and an array of the values in the order of the names. -/
inductive SameFields (names : List String) : Json → Json → Prop where
  | members {ms ms' : List (String × Json)} :
      (ms.filter (names.contains ·.1)).Perm (ms'.filter (names.contains ·.1)) →
        SameFields names (.object ms) (.object ms')
  | places {items : List Json} :
      items.length = names.length → SameFields names (.array items) (.object (names.zip items))

variable {names : List String} {ms ms' : List (String × Json)} {key : String}

lemma member?_congr (h : (ms.filter (·.1 == key)).Perm (ms'.filter (·.1 == key))) :
    member? ms key = member? ms' key := by
  unfold member?
  generalize ms.filter (·.1 == key) = found at h
  generalize ms'.filter (·.1 == key) = found' at h
  rcases found' with _ | ⟨m, _ | ⟨n, found'⟩⟩
  · rw [List.perm_nil.1 h]
  · rw [List.perm_singleton.1 h]
  · obtain ⟨m', n', rest, rfl⟩ : ∃ m' n' rest, found = m' :: n' :: rest := by
      match found, h.length_eq with
      | m' :: n' :: rest, _ => exact ⟨m', n', rest, rfl⟩
    rfl

/-- A member is looked up among the members of any names that its own is one of. -/
lemma filter_filter_contains (hkey : key ∈ names) :
    (ms.filter (names.contains ·.1)).filter (·.1 == key) = ms.filter (·.1 == key) := by
  rw [List.filter_filter]
  refine List.filter_congr fun m _ => ?_
  cases hm : m.1 == key with
  | false => rfl
  | true => simpa [beq_iff_eq.1 hm] using hkey

lemma mapM_member?_congr (h : ∀ key ∈ names, member? ms key = member? ms' key) :
    names.mapM (member? ms) = names.mapM (member? ms') := by
  induction names with
  | nil => rfl
  | cons name names ih =>
    rw [List.forall_mem_cons] at h
    rw [List.mapM_cons, List.mapM_cons, h.1, ih h.2]

lemma mapM_member?_zip (hnames : names.Nodup) {items : List Json}
    (h : items.length = names.length) : names.mapM (member? (names.zip items)) = some items := by
  induction names generalizing items with
  | nil =>
    rw [List.length_nil, List.length_eq_zero_iff] at h
    rw [h]
    rfl
  | cons name names ih =>
    obtain ⟨hname, hnames⟩ := List.nodup_cons.1 hnames
    obtain ⟨v, items, rfl⟩ := List.exists_cons_of_length_eq_add_one h
    have hfirst : member? ((name, v) :: names.zip items) name = some v := by
      have hrest : (names.zip items).filter (·.1 == name) = [] := by
        simp only [List.filter_eq_nil_iff, beq_iff_eq]
        rintro ⟨k, w⟩ hm rfl
        exact hname (List.of_mem_zip hm).1
      simp [member?, hrest]
    have hothers : names.mapM (member? ((name, v) :: names.zip items)) = some items := by
      rw [← ih hnames (by simpa using h)]
      refine mapM_member?_congr fun key hkey => ?_
      have hne : name ≠ key := fun hk => hname (hk ▸ hkey)
      simp [member?, hne]
    rw [List.zip_cons_cons, List.mapM_cons, hfirst, hothers]
    rfl

/-- **A record is read from its fields alone.** -/
theorem fields?_congr {v w : Json} (hnames : names.Nodup) (h : SameFields names v w) :
    v.fields? names = w.fields? names := by
  cases h with
  | members h =>
    refine mapM_member?_congr fun key hkey => member?_congr ?_
    have hkeyed := h.filter (·.1 == key)
    rwa [filter_filter_contains hkey, filter_filter_contains hkey] at hkeyed
  | places h => rw [fields?, fields?, if_pos h, mapM_member?_zip hnames h]

namespace Codec

variable {L : Layout} {depth : Nat} {v : Json}

/-- **A span is decoded from any text that gives its offsets**, whatever the white space, the order
and the other members. -/
theorem decode?_span {s : Span} (hs : s.Fits) (hv : v.isPlain = true)
    (h : SameFields ["start", "end"] v s.toJson) :
    span.decode? (String.ofList (L.text depth v)) = some s := by
  rw [decode?, read?_text L depth hv, Option.bind_some]
  refine Span.ofJson?_eq_some_iff.2 ⟨?_, hs⟩
  rw [fields?_congr (by decide) h, s.fields?_toJson]

/-- **A diagnostic is decoded from any text that gives its fields**, the span and the severity in
any form that is decoded to them. -/
theorem decode?_diagnostic {d : Diagnostic} {span severity : Json} (hv : v.isPlain = true)
    (h : SameFields ["span", "message", "severity"] v
      (.object [("span", span), ("message", .string d.message), ("severity", severity)]))
    (hspan : Span.ofJson? span = some d.span)
    (hseverity : Severity.ofJson? severity = some d.severity) :
    diagnostic.decode? (String.ofList (L.text depth v)) = some d := by
  rw [decode?, read?_text L depth hv, Option.bind_some]
  refine Diagnostic.ofJson?_eq_some_iff.2 ⟨span, severity, ?_, hspan, hseverity⟩
  rw [fields?_congr (by decide) h]
  rfl

end Codec

end Json

end TxTree
