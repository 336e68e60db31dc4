import Scribe.Journal.Field
import Scribe.Journal.Level
import Scribe.Proofs.Document.Reading

/-!
# Texts of the program's own

Whatever number, duration, time or level a record shows, its text is portable, and the text of a
number is a number of JSON.
-/

namespace Scribe

/-! ## Numbers -/

namespace Bytes

theorem ofNat_isDigits (n : Nat) : JsonText.IsDigits (ofNat n) := ⟨ofNat_ne_nil n, ofNat_digits n⟩

theorem ofNat_zero_first {n : Nat} (h : (ofNat n).head? = some 0x30) : n = 0 := by
  induction n using Nat.strongRecOn with
  | ind n ih =>
      rw [ofNat_eq] at h
      split at h
      · next hsmall =>
          have hdigit : ∀ d < 10, digit d = 0x30 → d = 0 := by decide
          exact hdigit n hsmall (by simpa using h)
      · next hlarge =>
          rw [List.head?_append_of_ne_nil _ (ofNat_ne_nil _)] at h
          have hzero := ih (n / 10) (by omega) h
          omega

end Bytes

namespace Layout

open JsonText

theorem isMagnitude_whole {w : Bytes} (h : IsDigits w) (hzero : w.head? = some 0x30 → w = [0x30]) :
    IsMagnitude w := by
  have hmagnitude := IsMagnitude.mk h hzero .none .none
  rwa [List.append_nil, List.append_nil] at hmagnitude

theorem ofNat_isMagnitude (n : Nat) : IsMagnitude (Bytes.ofNat n) := by
  refine isMagnitude_whole (Bytes.ofNat_isDigits n) fun hfirst => ?_
  rw [Bytes.ofNat_zero_first hfirst]
  rfl

theorem positional_isMagnitude (d : Decimal) : IsMagnitude (positional d) := by
  have hdigits := Bytes.ofNat_isDigits d.digits
  by_cases hexp : 0 ≤ d.exponent
  · simp only [positional, if_pos hexp]
    split
    · exact ofNat_isMagnitude d.digits
    · next hpos =>
        refine isMagnitude_whole ⟨by simp [hdigits.1], fun b hb => ?_⟩ fun hfirst => ?_
        · rcases List.mem_append.mp hb with hb | hb
          · exact hdigits.2 b hb
          · exact Decimal.zeros_digits _ b hb
        · rw [List.head?_append_of_ne_nil _ hdigits.1] at hfirst
          exact absurd (Bytes.ofNat_zero_first hfirst) hpos
  · have hlength := Decimal.padded_length d
    rw [Decimal.positional_point (by omega)]
    generalize hplaces : (-d.exponent).toNat = places at hlength
    have hwhole : IsDigits ((Decimal.padded d).take ((Decimal.padded d).length - places)) := by
      refine ⟨?_, fun b hb => Decimal.padded_digits d b (List.mem_of_mem_take hb)⟩
      rw [← List.length_pos_iff, List.length_take]
      omega
    have hfraction : IsDigits ((Decimal.padded d).drop ((Decimal.padded d).length - places)) := by
      refine ⟨?_, fun b hb => Decimal.padded_digits d b (List.mem_of_mem_drop hb)⟩
      rw [← List.length_pos_iff, List.length_drop]
      omega
    have hmagnitude := IsMagnitude.mk hwhole (fun hfirst => ?_) (.point hfraction) .none
    · rwa [List.append_nil] at hmagnitude
    · by_cases hfill : (Bytes.ofNat d.digits).length ≤ places
      · -- The zeros that fill up the digits leave one of them in front of the point.
        have hone : (Decimal.padded d).length - places = 1 := by
          simp only [Decimal.padded, Layout.zeros, List.length_append, List.length_replicate,
            hplaces]
          omega
        rw [hone] at hfirst ⊢
        cases hpadded : Decimal.padded d with
        | nil => simp [hpadded] at hfirst
        | cons b more => simpa [hpadded] using hfirst
      · have hpadded : Decimal.padded d = Bytes.ofNat d.digits := by
          have hnone : places + 1 - (Bytes.ofNat d.digits).length = 0 := by omega
          rw [Decimal.padded, hplaces, hnone]
          rfl
        rw [hpadded, List.head?_take, if_neg (by omega)] at hfirst
        have hzero := Bytes.ofNat_zero_first hfirst
        rw [hzero] at hfill
        exact absurd (show (Bytes.ofNat 0).length ≤ places by
          rw [show (Bytes.ofNat 0).length = 1 from rfl]
          omega) hfill

theorem padLeft_isDigits (width n : Nat) : IsDigits (padLeft width (Bytes.ofNat n)) := by
  refine ⟨by simp [padLeft, Bytes.ofNat_ne_nil], fun b hb => ?_⟩
  rcases List.mem_append.mp hb with hb | hb
  · exact Decimal.zeros_digits _ b hb
  · exact Bytes.ofNat_digits _ b hb

theorem scientific_isMagnitude (layout : Layout) (d : Decimal) (lead : Int) :
    IsMagnitude (scientific layout d lead) := by
  obtain ⟨b, more, hdigits⟩ := List.exists_cons_of_ne_nil (Bytes.ofNat_ne_nil d.digits)
  have hall := Bytes.ofNat_digits d.digits
  rw [hdigits, List.forall_mem_cons] at hall
  have hfraction : IsFraction (if more.isEmpty then [] else 0x2E :: more) := by
    split
    · exact .none
    · next hne => exact .point ⟨by simpa using hne, hall.2⟩
  have hexponent : IsExponent ([0x65] ++
      (if lead < 0 then 0x2D :: padLeft layout.negativeWidth (Bytes.ofNat lead.natAbs)
        else 0x2B :: padLeft 2 (Bytes.ofNat lead.natAbs))) := by
    split
    · exact .power (.inr rfl) (padLeft_isDigits _ _)
    · exact .power (.inl rfl) (padLeft_isDigits _ _)
  have hmagnitude := IsMagnitude.mk (w := [b]) ⟨by simp, by simpa using hall.1⟩ (by simp)
    hfraction hexponent
  simpa [scientific, hdigits] using hmagnitude

/-- The text of a finite number in a log record is a number of JSON. -/
theorem magnitude_isMagnitude (d : Decimal) : IsMagnitude (general.magnitude d) := by
  unfold magnitude
  dsimp only
  split
  · exact scientific_isMagnitude _ _ _
  · have htail : utf8 general.integerTail = [] := rfl
    rw [htail, List.append_nil, ite_self]
    exact positional_isMagnitude d

end Layout

/-! ## Visible texts -/

namespace Bytes

def isVisible (b : UInt8) : Bool := 0x20 ≤ b && b < 0x7F

def IsVisible (text : Bytes) : Prop := ∀ b ∈ text, isVisible b = true

instance (text : Bytes) : Decidable text.IsVisible :=
  inferInstanceAs (Decidable (∀ b ∈ text, isVisible b = true))

variable {text rest : Bytes}

theorem IsVisible.of_all (h : text.all isVisible = true) : text.IsVisible := List.all_eq_true.mp h

theorem words_visible {words : List String}
    (h : (words.all fun word => (utf8 word).all isVisible) = true) :
    ∀ word ∈ words, (utf8 word).IsVisible :=
  fun word hword => .of_all (List.all_eq_true.mp h word hword)

theorem IsVisible.append (h : text.IsVisible) (hrest : rest.IsVisible) : (text ++ rest).IsVisible :=
  List.forall_mem_append.mpr ⟨h, hrest⟩

theorem IsVisible.cons {b : UInt8} (hb : isVisible b = true) (h : text.IsVisible) :
    IsVisible (b :: text) :=
  List.forall_mem_cons.mpr ⟨hb, h⟩

theorem IsVisible.take (h : text.IsVisible) (n : Nat) : IsVisible (text.take n) :=
  fun b hb => h b (List.mem_of_mem_take hb)

/-- A visible text stays visible if its end is cut off. -/
theorem IsVisible.trimmed (h : text.IsVisible) (p : UInt8 → Bool) :
    IsVisible (text.reverse.dropWhile p).reverse := by
  intro b hb
  rw [List.mem_reverse] at hb
  exact h b (List.mem_reverse.mp ((List.dropWhile_suffix p).subset hb))

theorem isVisible_of_isDigit {b : UInt8} (h : isDigit b = true) : isVisible b = true := by
  simp only [isDigit, isVisible, Bool.and_eq_true, decide_eq_true_eq, UInt8.le_iff_toNat_le,
    UInt8.lt_iff_toNat_lt] at h ⊢
  exact ⟨Nat.le_trans (by decide) h.1, Nat.lt_of_le_of_lt h.2 (by decide)⟩

theorem ofNat_visible (n : Nat) : (ofNat n).IsVisible :=
  fun b hb => isVisible_of_isDigit (ofNat_digits n b hb)

theorem ofInt_visible (n : Int) : (ofInt n).IsVisible := by
  cases n with
  | ofNat n => exact ofNat_visible n
  | negSucc n => exact .cons rfl (ofNat_visible _)

theorem IsVisible.portable_append (h : text.IsVisible) (hrest : rest.IsPortable) :
    (text ++ rest).IsPortable := by
  have hascii : ∀ b ∈ text, b < 0x80 := by
    intro b hb
    have hvisible := h b hb
    simp only [isVisible, Bool.and_eq_true, decide_eq_true_eq] at hvisible
    exact UInt8.lt_trans hvisible.2 (by decide)
  intro r hr
  rw [runes_ascii_append text hascii, List.mem_append, List.mem_map] at hr
  rcases hr with ⟨b, hb, rfl⟩ | hr
  · have hvisible := h b hb
    simp only [isVisible, Bool.and_eq_true, decide_eq_true_eq] at hvisible
    have hprint := (Quoted.isPrintable_ascii (hascii b hb)).mpr hvisible
    have hwell : (Rune.ascii b).char ≠ Rune.replacement := by
      intro hchar
      have hnat := Rune.ascii_toNat b
      have hbyte := b.toNat_lt
      rw [hchar] at hnat
      exact absurd hnat (by simp [Rune.replacement]; omega)
    simp [Quoted.isPortable, Rune.isMalformed, hwell, hprint]
  · exact hrest r hr

theorem IsVisible.portable (h : text.IsVisible) : text.IsPortable := by
  have hportable := h.portable_append (show IsPortable [] by simp [IsPortable])
  rwa [List.append_nil] at hportable

end Bytes

open Bytes (IsVisible)

namespace Layout

open JsonText

theorem isMagnitude_visible {text : Bytes} (h : IsMagnitude text) : text.IsVisible := by
  have hdigits : ∀ {ds}, IsDigits ds → ds.IsVisible :=
    fun h b hb => Bytes.isVisible_of_isDigit (h.2 b hb)
  cases h with
  | mk hwhole hzero hfraction hexponent =>
      refine .append (hdigits hwhole) (.append ?_ ?_)
      · cases hfraction with
        | none => exact nofun
        | point h => exact .cons rfl (hdigits h)
      · cases hexponent with
        | none => exact nofun
        | power hsign h =>
            refine .cons rfl (.cons ?_ (hdigits h))
            rcases hsign with rfl | rfl <;> rfl

theorem number_visible (f : Float) : (general.number f).IsVisible := by
  unfold number
  split
  · exact .of_all rfl
  · split
    · split <;> exact .of_all rfl
    · have hvisible := isMagnitude_visible (magnitude_isMagnitude
        (Decimal.shortest (Binary.ofBits (f.toBits.toNat % 0x8000000000000000))))
      dsimp only
      split
      · exact .cons rfl hvisible
      · exact hvisible

end Layout

/-! ## Durations and times -/

namespace TimeLayout

theorem padded_visible {fill : UInt8} (hfill : Bytes.isVisible fill = true) (width n : Nat) :
    (padded fill width n).IsVisible := by
  refine .append (fun b hb => ?_) (Bytes.ofNat_visible n)
  rwa [List.eq_of_mem_replicate hb]

theorem twoPlaces_visible (pad : Bool) (n : Nat) : (twoPlaces pad n).IsVisible := by
  cases pad with
  | false => exact Bytes.ofNat_visible n
  | true => exact padded_visible rfl 2 n

theorem nameAt_visible {names : List String} (h : ∀ name ∈ names, (utf8 name).IsVisible)
    (index : Nat) (long : Bool) : (nameAt names index long).IsVisible := by
  have hname : (utf8 ((names[index]?).getD "")).IsVisible := by
    cases hfound : names[index]? with
    | none => exact nofun
    | some name => exact h name (List.mem_of_getElem? hfound)
  cases long with
  | false => exact hname.take 3
  | true => exact hname

theorem fractionText_visible {mark : UInt8} (hmark : Bytes.isVisible mark = true)
    (digits : Nat) (trimmed : Bool) (nanos : Nat) :
    (fractionText mark digits trimmed nanos).IsVisible := by
  have hzero : Bytes.isVisible 0x30 = true := rfl
  have hshown := (padded_visible hzero 9 nanos).take (min digits 9)
  unfold fractionText
  dsimp only
  split
  · split
    · exact nofun
    · exact .cons hmark (hshown.trimmed _)
  · exact .cons hmark hshown

/-- A part that writes visible characters only. -/
def Part.isVisible : Part → Bool
  | .other b | .day (some b) | .yearDay b | .fraction b _ _ => Bytes.isVisible b
  | .zone _ text => (utf8 text).all Bytes.isVisible
  | _ => true

theorem write_visible {p : Part} (h : p.isVisible = true) (t : Instant) :
    (write t p).IsVisible := by
  cases p with
  | other b => exact .cons h nofun
  | monthName long => exact nameAt_visible (Bytes.words_visible rfl) _ long
  | month pad => exact twoPlaces_visible pad _
  | weekDay long => exact nameAt_visible (Bytes.words_visible rfl) _ long
  | day pad =>
      cases pad with
      | none => exact Bytes.ofNat_visible _
      | some fill => exact padded_visible h 2 _
  | yearDay fill => exact padded_visible h 3 _
  | hour => exact padded_visible rfl 2 _
  | hour12 pad => exact twoPlaces_visible pad _
  | minute pad => exact twoPlaces_visible pad _
  | second pad => exact twoPlaces_visible pad _
  | year long =>
      cases long with
      | false => exact padded_visible rfl 2 _
      | true =>
          refine .append ?_ (padded_visible rfl 4 _)
          split
          · exact .cons rfl nofun
          · exact nofun
  | half upper =>
      rw [write]
      split <;> split <;> exact .of_all rfl
  | zoneName => exact .of_all rfl
  | zone zulu text =>
      cases zulu with
      | false => exact List.all_eq_true.mp h
      | true => exact .of_all rfl
  | fraction mark digits trimmed => exact fractionText_visible h digits trimmed _

end TimeLayout

theorem Instant.longText_visible (t : Instant) : t.longText.IsVisible := by
  have hparts : (TimeLayout.parts (utf8 "2006-01-02 15:04:05.999999999 -0700 MST").length
      (utf8 "2006-01-02 15:04:05.999999999 -0700 MST")).all TimeLayout.Part.isVisible = true := by
    rfl
  intro b hb
  rw [longText, TimeLayout.format, List.mem_flatMap] at hb
  obtain ⟨p, hp, hb⟩ := hb
  exact TimeLayout.write_visible (List.all_eq_true.mp hparts p hp) t b hb

namespace Duration

theorem decimal_visible (n places : Nat) : (decimal n places).IsVisible := by
  refine .append (Bytes.ofNat_visible _) ?_
  split
  · exact nofun
  · exact .cons rfl ((TimeLayout.padded_visible rfl _ _).trimmed _)

theorem magnitudeText_portable (n : Nat) : (magnitudeText n).IsPortable := by
  have hmicro : (utf8 "µs").IsPortable := by decide +kernel
  have hletter : ∀ letter ∈ ["0s", "ns", "ms", "s", "m", "h"], (utf8 letter).IsVisible :=
    Bytes.words_visible rfl
  have hseconds := (decimal_visible (n % 60000000000) 9).append (hletter "s" (by decide))
  unfold magnitudeText
  dsimp only
  split
  · exact (hletter _ (by decide)).portable
  · split
    · exact ((Bytes.ofNat_visible n).append (hletter _ (by decide))).portable
    · split
      · exact (decimal_visible n 3).portable_append hmicro
      · split
        · exact ((decimal_visible n 6).append (hletter _ (by decide))).portable
        · split
          · exact hseconds.portable
          · split
            · exact (((Bytes.ofNat_visible _).append (hletter _ (by decide))).append
                hseconds).portable
            · refine IsVisible.portable (.append (.append (.append (.append ?_ ?_) ?_) ?_) hseconds)
              · exact Bytes.ofNat_visible _
              · exact hletter _ (by decide)
              · exact Bytes.ofNat_visible _
              · exact hletter _ (by decide)

theorem text_portable (d : Duration) : d.text.IsPortable := by
  unfold text
  split
  · have hsign : IsVisible [0x2D] := .cons rfl nofun
    exact hsign.portable_append (magnitudeText_portable _)
  · exact magnitudeText_portable _

end Duration

/-! ## Levels -/

namespace Level

theorem defined_visible : ∀ d ∈ defined, (utf8 d.2).IsVisible := by
  have hnames := Bytes.words_visible (show ((defined.map Prod.snd).all _) = true from rfl)
  exact fun d hd => hnames d.2 (List.mem_map_of_mem hd)

theorem base_mem (l : Level) : l.base ∈ defined := by
  refine List.foldlRecOn defined _ (by decide) fun best hbest d hd => ?_
  split
  · exact hd
  · exact hbest

theorem name_visible (l : Level) : l.name.IsVisible := by
  unfold name
  split
  · next found hfound => exact defined_visible _ (List.mem_of_find?_eq_some hfound)
  · split
    · exact .append (.of_all rfl) (Bytes.ofInt_visible _)
    · exact .append (.append (defined_visible _ l.base_mem) (.cons rfl nofun))
        (Bytes.ofInt_visible _)

theorem label_visible (l : Level) : l.label.IsVisible := by
  intro b hb
  obtain ⟨c, hc, rfl⟩ := List.mem_map.mp hb
  have hvisible := l.name_visible c hc
  split
  · next hlower =>
      simp only [Bytes.isVisible, Bool.and_eq_true, decide_eq_true_eq, UInt8.le_iff_toNat_le,
        UInt8.lt_iff_toNat_lt] at hlower ⊢
      have hless : (0x20 : UInt8) ≤ c :=
        UInt8.le_iff_toNat_le.mpr (Nat.le_trans (by decide) hlower.1)
      rw [UInt8.toNat_sub_of_le _ _ hless]
      have hbounds : 0x61 ≤ c.toNat ∧ c.toNat ≤ 0x7A := hlower
      change 0x20 ≤ c.toNat - 0x20 ∧ c.toNat - 0x20 < 0x7F
      omega
  · exact hvisible

end Level

end Scribe
