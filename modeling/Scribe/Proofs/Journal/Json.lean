import Scribe.Journal.Pretty
import Scribe.Proofs.Journal.Legible

/-!
# Pretty records as JSON

A pretty record of the JSON form is an object of JSON once its colours are taken out, unless a key,
a message or another text that it shows is quoted with an escape that JSON does not have.
-/

namespace Scribe

/-! ## Taking out colours -/

namespace Bytes

def isColourByte (b : UInt8) : Bool := isDigit b || b == 0x3B

/-- Length of the colour sequence that a text starts with. -/
def colourLength? : Bytes → Option Nat
  | 0x1B :: 0x5B :: rest =>
      match rest.dropWhile isColourByte with
      | 0x6D :: _ => some ((rest.takeWhile isColourByte).length + 3)
      | _ => none
  | _ => none

/-- What is left of a text without its colour sequences; the first `pending` bytes belong to a
sequence already found. -/
def uncolouredFrom : (pending : Nat) → Bytes → Bytes
  | _, [] => []
  | pending + 1, _ :: rest => uncolouredFrom pending rest
  | 0, b :: rest =>
      match colourLength? (b :: rest) with
      | some n => uncolouredFrom (n - 1) rest
      | none => b :: uncolouredFrom 0 rest

def uncoloured (text : Bytes) : Bytes := uncolouredFrom 0 text

theorem uncolouredFrom_append (front rest : Bytes) :
    uncolouredFrom front.length (front ++ rest) = uncoloured rest := by
  induction front with
  | nil => rfl
  | cons b front ih => exact ih

theorem uncoloured_append {text : Bytes} (h : 0x1B ∉ text) (rest : Bytes) :
    uncoloured (text ++ rest) = text ++ uncoloured rest := by
  induction text with
  | nil => rfl
  | cons b text ih =>
      rw [List.mem_cons, not_or] at h
      have hnone : colourLength? (b :: (text ++ rest)) = none := by
        unfold colourLength?
        split
        · next heq => exact absurd (List.cons.inj heq).1.symm h.1
        · rfl
      have hrest := ih h.2
      simp only [uncoloured] at hrest ⊢
      rw [List.cons_append, uncolouredFrom, hnone]
      simp only [hrest, List.cons_append]

theorem uncoloured_sequence {marks : Bytes} (h : ∀ b ∈ marks, isColourByte b = true)
    (rest : Bytes) : uncoloured (0x1B :: 0x5B :: (marks ++ 0x6D :: rest)) = uncoloured rest := by
  have hfound : colourLength? (0x1B :: 0x5B :: (marks ++ 0x6D :: rest)) =
      some (marks.length + 3) := by
    have htake : (marks ++ 0x6D :: rest).takeWhile isColourByte = marks := by
      rw [List.takeWhile_append_of_pos h, List.takeWhile_cons_of_neg (by decide), List.append_nil]
    have hdrop : (marks ++ 0x6D :: rest).dropWhile isColourByte = 0x6D :: rest := by
      rw [List.dropWhile_append_of_pos h, List.dropWhile_cons_of_neg (by decide)]
    simp only [colourLength?, htake, hdrop]
  have hfront := uncolouredFrom_append (0x5B :: (marks ++ [0x6D])) rest
  rw [uncoloured, uncolouredFrom, hfound, ← hfront]
  simp

end Bytes

namespace Colour

theorem uncoloured_paint (c : Colour) {text : Bytes} (h : 0x1B ∉ text) (rest : Bytes) :
    Bytes.uncoloured (c.paint text ++ rest) = text ++ Bytes.uncoloured rest := by
  have hcode : ∀ b ∈ utf8 c.code, Bytes.isColourByte b = true :=
    List.all_eq_true.mp (by cases c <;> rfl)
  have hstart : ∀ behind, c.start ++ behind = 0x1B :: 0x5B :: (utf8 c.code ++ 0x6D :: behind) := by
    intro behind
    have hmark : utf8 "m" = [0x6D] := rfl
    rw [start, hmark, List.append_assoc, List.append_assoc]
    rfl
  have hzero : ∀ b ∈ [0x30], Bytes.isColourByte b = true := List.forall_mem_singleton.mpr rfl
  have hreset : Bytes.uncoloured (reset ++ rest) = Bytes.uncoloured rest :=
    Bytes.uncoloured_sequence hzero rest
  rw [paint, List.append_assoc, List.append_assoc, hstart, Bytes.uncoloured_sequence hcode,
    Bytes.uncoloured_append h, hreset]

end Colour

/-! ## Fields -/

/-- The texts that a value shows are portable, other than those that the program spells itself. -/
def Leaf.IsPortable : Leaf → Prop
  | .text s | .failure s => s.IsPortable
  | .texts items => (Leaf.texts items).display.IsPortable
  | _ => True

namespace Pretty

open JsonText (Delimited ReadsIf skipBlanks value)

/-- Key and value of a field are portable. -/
def IsPortable (e : Entry) : Prop := e.1.IsPortable ∧ e.2.IsPortable

def plainValue (key : Bytes) (l : Leaf) : Bytes :=
  if (look key l).bare then (look key l).text else (look key l).text.quoted

def plainEntry (e : Entry) : Bytes :=
  utf8 "  " ++ e.1.quoted ++ utf8 ": " ++ plainValue e.1 e.2

theorem value_float {f : Float} (hfinite : (f.isInf || f.isNaN) = false) {rest : Bytes}
    (hrest : Delimited rest) (fuel depth : Nat) :
    ∃ d, value (fuel + 1) depth (Layout.general.number f ++ rest) = .ok (d, rest) := by
  rw [Bool.or_eq_false_iff] at hfinite
  have hmagnitude := Layout.magnitude_isMagnitude
    (Decimal.shortest (Binary.ofBits (f.toBits.toNat % 0x8000000000000000)))
  unfold Layout.number
  rw [if_neg (by rw [hfinite.2]; decide), if_neg (by rw [hfinite.1]; decide)]
  dsimp only
  split
  · exact JsonText.value_negative hmagnitude hrest fuel depth
  · exact JsonText.value_magnitude hmagnitude hrest fuel depth

/-- A value is read exactly if it is portable. -/
theorem value_plainValue (key : Bytes) (l : Leaf) {rest : Bytes} (hrest : Delimited rest)
    (fuel depth : Nat) :
    ReadsIf l.IsPortable (value (fuel + 1) depth (plainValue key l ++ rest)) rest := by
  have hquoted : ∀ text : Bytes, (l.IsPortable ↔ text.IsPortable) →
      ReadsIf l.IsPortable (value (fuel + 1) depth (text.quoted ++ rest)) rest := by
    intro text hiff
    rw [hiff]
    exact JsonText.value_quoted text rest fuel depth
  have hwhole : ∀ n : Nat, ∃ d, value (fuel + 1) depth (Bytes.ofNat n ++ rest) = .ok (d, rest) :=
    fun n => JsonText.value_magnitude (Layout.ofNat_isMagnitude n) hrest fuel depth
  cases l with
  | null => exact .of_read trivial ⟨_, JsonText.value_null fuel depth rest⟩
  | text s => exact hquoted s Iff.rfl
  | int n =>
      refine .of_read trivial ?_
      cases n with
      | ofNat n => exact hwhole n
      | negSucc n => exact JsonText.value_negative (Layout.ofNat_isMagnitude _) hrest fuel depth
  | uint n => exact .of_read trivial (hwhole n)
  | float f =>
      cases hfinite : f.isInf || f.isNaN with
      | false =>
          have hvalue : plainValue key (.float f) = Layout.general.number f :=
            if_pos (congrArg Bool.not hfinite)
          rw [hvalue]
          exact .of_read trivial (value_float hfinite hrest fuel depth)
      | true =>
          have hvalue : plainValue key (.float f) = (Layout.general.number f).quoted :=
            if_neg (by simp only [look, hfinite]; decide)
          rw [hvalue]
          exact hquoted _ (iff_of_true trivial ((Layout.number_visible f).portable))
  | boolean b => exact .of_read trivial ⟨_, JsonText.value_boolean b fuel depth rest⟩
  | duration d => exact hquoted _ (iff_of_true trivial d.text_portable)
  | time t => exact hquoted _ (iff_of_true trivial t.longText_visible.portable)
  | texts items => exact hquoted _ Iff.rfl
  | failure s => exact hquoted s Iff.rfl

/-! ## Objects -/

def plainFields (fields : List Entry) : Bytes :=
  Bytes.join (utf8 ",\n") (fields.map plainEntry) ++ utf8 "\n\x7d\n"

theorem plainFields_singleton (e : Entry) :
    plainFields [e] = plainEntry e ++ 0x0A :: 0x7D :: [0x0A] := by
  rw [plainFields, List.map_singleton, Bytes.join, List.intercalate_singleton]
  rfl

theorem plainFields_cons (e f : Entry) (rest : List Entry) :
    plainFields (e :: f :: rest) = plainEntry e ++ 0x2C :: 0x0A :: plainFields (f :: rest) := by
  rw [plainFields, List.map_cons, List.map_cons, Bytes.join, List.intercalate_cons_cons]
  simp only [plainFields, Bytes.join, List.map_cons, List.append_assoc]
  rfl

theorem skipBlanks_plainEntry (key : Bytes) (l : Leaf) (rest : Bytes) :
    skipBlanks (plainEntry (key, l) ++ rest) =
      0x22 :: (key.runes.flatMap Quoted.rune ++
        Bytes.quote :: 0x3A :: 0x20 :: (plainValue key l ++ rest)) := by
  have hsplit : plainEntry (key, l) ++ rest =
      0x20 :: 0x20 :: 0x22 :: (key.runes.flatMap Quoted.rune ++
        Bytes.quote :: 0x3A :: 0x20 :: (plainValue key l ++ rest)) := by
    have hindent : utf8 "  " = [0x20, 0x20] := rfl
    have hcolon : utf8 ": " = [0x3A, 0x20] := rfl
    simp [plainEntry, Bytes.quoted, hindent, hcolon, Bytes.quote]
  rw [hsplit]
  rfl

/-- The reader takes a field if it is portable, and goes on behind a comma or ends at the end of the
object. -/
theorem fields_plainEntry (e : Entry) {rest : Bytes} (hrest : Delimited rest) (fuel depth : Nat)
    (done : List (Bytes × Document)) :
    (IsPortable e → ∃ done',
      (∀ more, rest = 0x2C :: more → JsonText.fields (fuel + 2) depth done (plainEntry e ++ rest) =
        JsonText.fields (fuel + 1) depth done' more) ∧
      (∀ more, rest = 0x0A :: 0x7D :: more →
        JsonText.fields (fuel + 2) depth done (plainEntry e ++ rest) =
          .ok (.record done', more))) ∧
      (¬ IsPortable e →
        ∃ fault, JsonText.fields (fuel + 2) depth done (plainEntry e ++ rest) = .error fault) := by
  obtain ⟨key, l⟩ := e
  obtain ⟨hvalue, hvalueFault⟩ := value_plainValue key l hrest fuel depth
  obtain ⟨hkey, hkeyFault⟩ :=
    JsonText.string_quoted key (0x3A :: 0x20 :: (plainValue key l ++ rest))
  have hskip := skipBlanks_plainEntry key l rest
  have hcolon : skipBlanks (0x3A :: 0x20 :: (plainValue key l ++ rest)) =
      0x3A :: 0x20 :: (plainValue key l ++ rest) := rfl
  constructor
  · rintro ⟨hkeyPortable, hvaluePortable⟩
    obtain ⟨d, hd⟩ := hvalue hvaluePortable
    refine ⟨JsonText.setField key d done, ?_, ?_⟩
    · rintro more rfl
      have hcomma : skipBlanks (0x2C :: more) = 0x2C :: more := rfl
      rw [JsonText.fields, hskip]
      simp only [hkey hkeyPortable, hcolon, JsonText.value_space, hd, hcomma]
    · rintro more rfl
      have hend : skipBlanks (0x0A :: 0x7D :: more) = 0x7D :: more := rfl
      rw [JsonText.fields, hskip]
      simp only [hkey hkeyPortable, hcolon, JsonText.value_space, hd, hend]
  · intro hportable
    rw [JsonText.fields, hskip]
    by_cases hkeyPortable : key.IsPortable
    · obtain ⟨fault, hfault⟩ := hvalueFault fun h => hportable ⟨hkeyPortable, h⟩
      simp only [hkey hkeyPortable, hcolon, JsonText.value_space, hfault]
      exact ⟨fault, rfl⟩
    · obtain ⟨fault, hfault⟩ := hkeyFault hkeyPortable
      simp only [hfault]
      exact ⟨fault, rfl⟩

/-- The reader takes the fields of an object if all of them are portable, and not otherwise. -/
theorem fields_plainFields (e : Entry) (es : List Entry) {fuel : Nat} (hfuel : es.length + 1 < fuel)
    (depth : Nat) (done : List (Bytes × Document)) :
    ((∀ f ∈ e :: es, IsPortable f) → ∃ members,
      JsonText.fields fuel depth done (plainFields (e :: es)) = .ok (.record members, [0x0A])) ∧
      ((¬ ∀ f ∈ e :: es, IsPortable f) →
        ∃ fault, JsonText.fields fuel depth done (plainFields (e :: es)) = .error fault) := by
  obtain ⟨fuel, rfl⟩ : ∃ n, fuel = n + 2 := ⟨fuel - 2, by omega⟩
  induction es generalizing e fuel done with
  | nil =>
      have hend : Delimited (0x0A :: 0x7D :: [0x0A]) := ⟨_, _, rfl, .inr rfl⟩
      obtain ⟨hread, hfault⟩ := fields_plainEntry e hend fuel depth done
      rw [plainFields_singleton, List.forall_mem_singleton]
      refine ⟨fun h => ?_, hfault⟩
      obtain ⟨members, -, hmembers⟩ := hread h
      exact ⟨members, hmembers _ rfl⟩
  | cons f es ih =>
      obtain ⟨fuel, rfl⟩ : ∃ n, fuel = n + 1 := ⟨fuel - 1, by rw [List.length_cons] at hfuel; omega⟩
      rw [List.length_cons] at hfuel
      have hcomma : Delimited (0x2C :: 0x0A :: plainFields (f :: es)) := ⟨_, _, rfl, .inl rfl⟩
      obtain ⟨hread, hfault⟩ := fields_plainEntry e hcomma (fuel + 1) depth done
      rw [plainFields_cons, List.forall_mem_cons]
      by_cases hportable : IsPortable e
      · obtain ⟨done', hmore, -⟩ := hread hportable
        obtain ⟨ihread, ihfault⟩ := ih f done' fuel (by omega)
        rw [hmore _ rfl, JsonText.fields_lineFeed]
        exact ⟨fun h => ihread h.2, fun h => ihfault fun hall => h ⟨hportable, hall⟩⟩
      · exact ⟨fun h => absurd h.1 hportable, fun _ => hfault hportable⟩

/-! ## Records -/

/-- Neither quotes nor numbers nor words hold an escape character. -/
theorem escape_not_mem_plainValue (key : Bytes) (l : Leaf) : 0x1B ∉ plainValue key l := by
  have hquoted : ∀ text : Bytes, 0x1B ∉ text.quoted :=
    fun text h => Quoted.not_control_of_mem_quoted h (by decide)
  have hvisible : ∀ {text : Bytes}, text.IsVisible → 0x1B ∉ text := fun h hmem => by
    cases h _ hmem
  cases l with
  | null => exact hvisible (show (utf8 "null").IsVisible from .of_all rfl)
  | int n => exact hvisible (Bytes.ofInt_visible n)
  | uint n => exact hvisible (Bytes.ofNat_visible n)
  | float f =>
      unfold plainValue
      split
      · exact hvisible (Layout.number_visible f)
      · exact hquoted _
  | boolean b =>
      have hword : (Value.ofBool b).IsVisible := .of_all (by cases b <;> rfl)
      exact hvisible hword
  | text s => exact hquoted _
  | duration d => exact hquoted _
  | time t => exact hquoted _
  | texts items => exact hquoted _
  | failure s => exact hquoted _

theorem uncoloured_jsonEntry (e : Entry) (rest : Bytes) :
    Bytes.uncoloured (jsonEntry e ++ rest) = plainEntry e ++ Bytes.uncoloured rest := by
  obtain ⟨key, l⟩ := e
  have hkey : 0x1B ∉ key.quoted := fun h => Quoted.not_control_of_mem_quoted h (by decide)
  have hindent : (0x1B : UInt8) ∉ utf8 "  " := by decide
  have hcolon : (0x1B : UInt8) ∉ utf8 ": " := by decide
  have hentry : jsonEntry (key, l) = utf8 "  " ++ Colour.gray.paint key.quoted ++ utf8 ": " ++
      (look key l).colour.paint (plainValue key l) := rfl
  rw [hentry, plainEntry]
  simp only [List.append_assoc]
  rw [Bytes.uncoloured_append hindent, Colour.uncoloured_paint _ hkey,
    Bytes.uncoloured_append hcolon, Colour.uncoloured_paint _ (escape_not_mem_plainValue key l)]

theorem uncoloured_entries (fields : List Entry) (rest : Bytes) :
    Bytes.uncoloured (Bytes.join (utf8 ",\n") (fields.map jsonEntry) ++ rest) =
      Bytes.join (utf8 ",\n") (fields.map plainEntry) ++ Bytes.uncoloured rest := by
  induction fields with
  | nil => rfl
  | cons e fields ih =>
      cases fields with
      | nil =>
          simp only [List.map_singleton, Bytes.join, List.intercalate_singleton]
          exact uncoloured_jsonEntry e rest
      | cons f fields =>
          have hcomma : (0x1B : UInt8) ∉ utf8 ",\n" := by decide
          simp only [List.map_cons, Bytes.join, List.intercalate_cons_cons] at ih ⊢
          simp only [List.append_assoc] at ih ⊢
          rw [uncoloured_jsonEntry, Bytes.uncoloured_append hcomma, ih]

theorem uncoloured_jsonLines (fields : List Entry) :
    Bytes.uncoloured (jsonLines fields) = 0x7B :: 0x0A :: plainFields fields := by
  have hopen : (0x1B : UInt8) ∉ utf8 "\x7b\n" := by decide
  have hclose : (0x1B : UInt8) ∉ utf8 "\n\x7d\n" := by decide
  have hend := Bytes.uncoloured_append hclose []
  rw [List.append_nil] at hend
  rw [jsonLines, List.append_assoc, Bytes.uncoloured_append hopen, uncoloured_entries, hend]
  exact congrArg (utf8 "\x7b\n" ++ Bytes.join (utf8 ",\n") (fields.map plainEntry) ++ ·)
    (List.append_nil _)

theorem length_le_plainFields (fields : List Entry) :
    fields.length ≤ (plainFields fields).length := by
  induction fields with
  | nil => exact Nat.zero_le _
  | cons e fields ih =>
      cases fields with
      | nil =>
          rw [plainFields_singleton]
          simp
      | cons f fields =>
          rw [plainFields_cons, List.length_cons]
          simp only [List.length_append, List.length_cons] at ih ⊢
          omega

/-- Lines of fields, without their colours, are an object of JSON if all of the fields are portable,
and only then. -/
theorem jsonLines_isObject_iff {fields : List Entry} (hne : fields ≠ []) :
    JsonText.IsObject (Bytes.uncoloured (jsonLines fields)) ↔ ∀ e ∈ fields, IsPortable e := by
  obtain ⟨e, es, rfl⟩ := List.exists_cons_of_ne_nil hne
  obtain ⟨more, hfirst⟩ : ∃ more, skipBlanks (0x0A :: plainFields (e :: es)) = 0x22 :: more := by
    rw [JsonText.skipBlanks_lineFeed]
    cases es with
    | nil => exact ⟨_, by rw [plainFields_singleton, skipBlanks_plainEntry]⟩
    | cons f es => exact ⟨_, by rw [plainFields_cons, skipBlanks_plainEntry]⟩
  have hlength := length_le_plainFields (e :: es)
  rw [List.length_cons] at hlength
  obtain ⟨hread, hfault⟩ := fields_plainFields e es
    (show es.length + 1 < (plainFields (e :: es)).length + 2 by omega) 1 []
  have hvalue : value ((plainFields (e :: es)).length + 3) 0
      (0x7B :: 0x0A :: plainFields (e :: es)) =
        JsonText.fields ((plainFields (e :: es)).length + 2) 1 [] (plainFields (e :: es)) := by
    rw [JsonText.value_object hfirst (by decide), JsonText.fields_lineFeed]
  rw [uncoloured_jsonLines, JsonText.IsObject]
  simp only [List.length_cons, Nat.add_assoc, Nat.reduceAdd, hvalue]
  constructor
  · rintro ⟨members, rest, hok, -⟩
    by_contra hportable
    obtain ⟨fault, hfields⟩ := hfault hportable
    cases hfields.symm.trans hok
  · intro hportable
    obtain ⟨members, hok⟩ := hread hportable
    exact ⟨members, [0x0A], hok, rfl⟩

/-- A record is an object of JSON, its colours taken out, exactly if every text in it that is not
the program's own is portable: the time as it is laid out, the message, the keys, and the values
that are texts. -/
theorem record_isObject_iff (h : Pretty) (time : Option Bytes) (level : Level) (message : Bytes)
    (attrs : List Attr) :
    JsonText.IsObject (Bytes.uncoloured (h.record true time level message attrs)) ↔
      (∀ text, time = some text → text.IsPortable) ∧ message.IsPortable ∧
        ∀ e ∈ h.held ++ entries h.path attrs, IsPortable e := by
  have hkey : ∀ {key : Bytes}, key.all Bytes.isVisible = true → key.IsPortable :=
    fun hall => (Bytes.IsVisible.of_all hall).portable
  have htime : timeKey.IsPortable := hkey rfl
  have hlevel : IsPortable (levelKey, .text level.label) :=
    ⟨hkey rfl, level.label_visible.portable⟩
  have hmessage : IsPortable (messageKey, .text message) ↔ message.IsPortable :=
    and_iff_right (hkey rfl)
  have hne : h.fields time level message attrs ≠ [] := by simp [fields]
  have hstamp : (∀ e ∈ (time.map fun text => (timeKey, Leaf.text text)).toList, IsPortable e) ↔
      ∀ text, time = some text → text.IsPortable := by
    cases time with
    | none => simp
    | some text => simp [IsPortable, Leaf.IsPortable, htime]
  rw [record, if_pos rfl, jsonLines_isObject_iff hne, fields, List.append_assoc, List.append_assoc,
    List.forall_mem_append, hstamp, List.forall_mem_append, List.forall_mem_cons,
    List.forall_mem_singleton, hmessage]
  simp only [hlevel, true_and]

/-- A control character that JSON has no letter for. -/
theorem control_message_rejected :
    ¬ JsonText.IsObject (Bytes.uncoloured (record {} true none .info [0x01] [])) := by
  have hportable : ¬ Bytes.IsPortable [0x01] := by
    intro hall
    cases hall (Rune.ascii 0x01) ((Bytes.mem_runes_ascii (by decide)).mpr List.mem_cons_self)
  have hne : fields {} none .info [0x01] [] ≠ [] := by simp [fields]
  rw [record, if_pos rfl, jsonLines_isObject_iff hne]
  intro hall
  exact hportable (hall (messageKey, .text [0x01]) (by simp [fields])).2

end Pretty

end Scribe
