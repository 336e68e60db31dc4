import Mathlib
import Scribe.Journal.Pretty
import Scribe.Proofs.Decimal.Digits
import Scribe.Proofs.Text.Space

/-!
# The names of levels

A level is named by a defined level and its distance from it, and reading the name adds the distance
up again, in lower case and in upper case, and whatever white space stands around it. So the colour
that the level of a record is shown in, which is chosen by reading the text that is shown, is the
colour of the level itself.
-/

namespace Scribe

namespace Decimal

theorem readDigits?_signed {sign : UInt8} {negative : Bool}
    (hsign : ∀ rest, splitSign (sign :: rest) = (negative, rest)) (n : Nat) :
    readDigits? (sign :: Bytes.ofNat n) = signed? negative n := by
  have hdigits : (Bytes.ofNat n).all Bytes.isDigit = true :=
    List.all_eq_true.mpr (Bytes.ofNat_digits n)
  have hsome : (Bytes.ofNat n).isEmpty = false :=
    List.isEmpty_eq_false_iff.mpr (Bytes.ofNat_ne_nil n)
  simp only [readDigits?, hsign, hdigits, hsome, digitsValue_ofNat, Bool.not_true, Bool.or_self,
    Bool.false_eq_true, if_false]

end Decimal

namespace Level

def distance (d : Int64) : Bytes :=
  (if d.toInt < 0 then 0x2D else 0x2B) :: Bytes.ofNat d.toInt.natAbs

theorem distance_of_neg {d : Int64} (h : d.toInt < 0) : distance d = Bytes.ofInt d.toInt := by
  rw [distance, if_pos h]
  cases hd : d.toInt with
  | ofNat n => exact absurd h (by rw [hd]; simp)
  | negSucc n => rfl

theorem distance_of_nonneg {d : Int64} (h : 0 ≤ d.toInt) :
    distance d = 0x2B :: Bytes.ofInt d.toInt := by
  rw [distance, if_neg (not_lt.mpr h)]
  cases hd : d.toInt with
  | ofNat n => rfl
  | negSucc n => exact absurd h (by rw [hd]; simp)

theorem readDigits?_distance (d : Int64) :
    Decimal.readDigits? (distance d) = some d.toInt := by
  have hmin := d.le_toInt
  have hmax := d.toInt_lt
  rw [distance]
  split
  · have hsign : ∀ rest, Decimal.splitSign (0x2D :: rest) = (true, rest) := fun _ => rfl
    rw [Decimal.readDigits?_signed hsign, Decimal.signed?, if_pos rfl, if_pos (by omega),
      Option.some_inj]
    omega
  · have hsign : ∀ rest, Decimal.splitSign (0x2B :: rest) = (false, rest) := fun _ => rfl
    rw [Decimal.readDigits?_signed hsign, Decimal.signed?, if_neg (by decide),
      if_pos (by omega), Option.some_inj]
    omega

theorem mem_distance {d : Int64} {b : UInt8} (h : b ∈ distance d) : 0x20 < b ∧ b < 0x40 := by
  rw [distance] at h
  rcases List.mem_cons.mp h with rfl | h
  · split <;> decide
  · have hdigit := Bytes.ofNat_digits _ b h
    rw [Bytes.isDigit, Bool.and_eq_true, decide_eq_true_eq, decide_eq_true_eq] at hdigit
    exact ⟨UInt8.lt_of_lt_of_le (by decide) hdigit.1, UInt8.lt_of_le_of_lt hdigit.2 (by decide)⟩

/-- What stands behind the name of a defined level: nothing, or the distance from it. -/
def IsDistance (tail : Bytes) (d : Int64) : Prop := tail = [] ∧ d = 0 ∨ tail = distance d

theorem IsDistance.mem {tail : Bytes} {d : Int64} (h : IsDistance tail d) {b : UInt8}
    (hb : b ∈ tail) : 0x20 < b ∧ b < 0x40 := by
  rcases h with ⟨rfl, -⟩ | rfl
  · cases hb
  · exact mem_distance hb

/-! ## Names -/

theorem toInt_sub_of_between {a b : Int64} (hmin : -2 ^ 63 ≤ a.toInt - b.toInt)
    (hmax : a.toInt - b.toInt < 2 ^ 63) : (a - b).toInt = a.toInt - b.toInt := by
  rw [Int64.toInt_sub, Int.bmod_eq_of_le (by omega) (by omega)]

/-- From `trace` on, the base of a level lies at it or below, and the distance is no more than 64
bits hold. -/
theorem base_spec {l : Level} (h : ¬ l.code < trace.code) : l.base ∈ defined ∧
    0 ≤ (l.code - l.base.1.code).toInt := by
  have hmax := l.code.toInt_lt
  have hle : trace.code.toInt ≤ l.code.toInt :=
    not_lt.mp fun hlt => h (Int64.lt_iff_toInt_lt.mpr hlt)
  have hbase : l.base ∈ defined ∧ 0 ≤ l.code.toInt - l.base.1.code.toInt ∧
      l.code.toInt - l.base.1.code.toInt < 2 ^ 63 := by
    have hcodes : trace.code.toInt = -8 ∧ debug.code.toInt = -4 ∧ info.code.toInt = 0 ∧
        warn.code.toInt = 4 ∧ error.code.toInt = 8 := by decide
    obtain ⟨htrace, hdebug, hinfo, hwarn, herror⟩ := hcodes
    simp only [base, defined, List.foldl_cons, List.foldl_nil, reaches, Int64.le_iff_toInt_le,
      decide_eq_true_eq]
    split_ifs <;> simp_all <;> omega
  obtain ⟨hmem, hfrom, hto⟩ := hbase
  rw [toInt_sub_of_between (by omega) hto]
  exact ⟨hmem, hfrom⟩

/-- A name is that of a defined level with the distance from it. -/
theorem name_eq (l : Level) : ∃ b ∈ defined, ∃ tail d, IsDistance tail d ∧
    l.name = utf8 b.2 ++ tail ∧ l = ⟨b.1.code + d⟩ := by
  rw [name]
  split
  · next b name hfound =>
      have hlevel : b = l := by simpa using List.find?_some hfound
      refine ⟨(b, name), List.mem_of_find?_eq_some hfound, [], 0, .inl ⟨rfl, rfl⟩, ?_, ?_⟩
      · rw [List.append_nil]
      · rw [hlevel, Int64.add_zero]
  · split
    · next hbelow =>
        have hdistance : (l.code - debug.code).toInt < 0 := by
          have hmin := l.code.le_toInt
          have hdebug : debug.code.toInt = -4 := by decide
          have htrace : trace.code.toInt = -8 := by decide
          rw [Int64.lt_iff_toInt_lt, htrace] at hbelow
          rw [toInt_sub_of_between (by omega) (by omega)]
          omega
        refine ⟨(debug, "debug"), by decide, _, l.code - debug.code, .inr rfl, ?_, ?_⟩
        · rw [distance_of_neg hdistance]
        · exact congrArg Level.mk (by rw [Int64.add_comm, Int64.sub_add_cancel])
    · next hfrom =>
        obtain ⟨hbase, hdistance⟩ := base_spec hfrom
        refine ⟨l.base, hbase, _, l.code - l.base.1.code, .inr rfl, ?_, ?_⟩
        · rw [distance_of_nonneg hdistance, List.append_assoc]
          rfl
        · exact congrArg Level.mk (by rw [Int64.add_comm, Int64.sub_add_cancel])

theorem upper_distance {tail : Bytes} {d : Int64} (h : IsDistance tail d) :
    Bytes.upper tail = tail := by
  refine (List.map_congr_left fun b hb => ?_).trans (List.map_id tail)
  have hdigit := UInt8.not_le.mpr (UInt8.lt_trans (h.mem hb).2 (show 0x40 < 0x61 by decide))
  rw [decide_eq_false hdigit, Bool.false_and, if_neg Bool.false_ne_true]
  rfl

/-! ## Reading names -/

def Spells (word : Bytes) (b : Level × String) : Prop :=
  b ∈ defined ∧ (word = utf8 b.2 ∨ word = Bytes.upper (utf8 b.2))

theorem Spells.visible {word : Bytes} {b : Level × String} (h : Spells word b) :
    ∀ c ∈ word, 0x20 < c ∧ c < 0x80 := by
  have hall : ∀ b ∈ defined, ∀ word ∈ [utf8 b.2, Bytes.upper (utf8 b.2)],
      ∀ c ∈ word, 0x20 < c ∧ c < 0x80 := by decide +kernel
  exact hall b h.1 word (by simpa using h.2)

theorem Spells.unsigned {word : Bytes} {b : Level × String} (h : Spells word b) :
    ∀ c ∈ word, isSign c = false := by
  have hall : ∀ b ∈ defined, ∀ word ∈ [utf8 b.2, Bytes.upper (utf8 b.2)],
      ∀ c ∈ word, isSign c = false := by decide +kernel
  exact hall b h.1 word (by simpa using h.2)

theorem Spells.of_trace {word : Bytes} {b : Level × String} (h : Spells word b)
    (hb : b.1 = trace) : word.length = 5 ∧ Bytes.lower word = utf8 "trace" := by
  have hall : ∀ b ∈ defined, b.1 = trace → ∀ word ∈ [utf8 b.2, Bytes.upper (utf8 b.2)],
      word.length = 5 ∧ Bytes.lower word = utf8 "trace" := by decide +kernel
  exact hall b h.1 hb word (by simpa using h.2)

/-- The other names are told from that of `trace` by their first letter. -/
theorem Spells.of_ne_trace {word : Bytes} {b : Level × String} (h : Spells word b)
    (hb : b.1 ≠ trace) : ofBaseName? word = some b.1 ∧ word ≠ [] ∧
      (Bytes.lower word).head? ≠ (utf8 "trace").head? := by
  have hall : ∀ b ∈ defined, b.1 ≠ trace → ∀ word ∈ [utf8 b.2, Bytes.upper (utf8 b.2)],
      ofBaseName? word = some b.1 ∧ word ≠ [] ∧
        (Bytes.lower word).head? ≠ (utf8 "trace").head? := by decide +kernel
  exact hall b h.1 hb word (by simpa using h.2)

theorem readPlain?_word {word : Bytes} {base : Level} (hword : ∀ c ∈ word, isSign c = false)
    (hbase : ofBaseName? word = some base) {tail : Bytes} {d : Int64} (htail : IsDistance tail d) :
    readPlain? (word ++ tail) = some ⟨base.code + d⟩ := by
  have hkeep : ∀ c ∈ word, (!isSign c) = true := fun c hc => by rw [hword c hc]; rfl
  rcases htail with ⟨rfl, rfl⟩ | rfl
  · have hdrop : word.dropWhile (!isSign ·) = [] := List.dropWhile_eq_nil_iff.mpr hkeep
    have htake : word.takeWhile (!isSign ·) = word := List.takeWhile_eq_self_iff.mpr hkeep
    rw [List.append_nil, readPlain?, hdrop, htake, Int64.add_zero]
    exact hbase
  · have hsign : ∃ sign rest, distance d = sign :: rest ∧ isSign sign = true := by
      refine ⟨_, _, rfl, ?_⟩
      split <;> rfl
    obtain ⟨sign, rest, hdistance, hsign⟩ := hsign
    have hdrop : (word ++ distance d).dropWhile (!isSign ·) = distance d := by
      rw [List.dropWhile_append_of_pos hkeep, hdistance,
        List.dropWhile_cons_of_neg (by simp [hsign])]
    have htake : (word ++ distance d).takeWhile (!isSign ·) = word := by
      rw [List.takeWhile_append_of_pos hkeep, hdistance,
        List.takeWhile_cons_of_neg (by simp [hsign]), List.append_nil]
    have hread := readDigits?_distance d
    rw [hdistance] at hread
    rw [readPlain?, hdrop, htake, hdistance]
    simp only [hread, hbase, Int64.ofInt_toInt]

/-- A spelled name with a distance is read as the level at this distance. -/
theorem read_spelled {word tail before after : Bytes} {b : Level × String} {d : Int64}
    (hword : Spells word b) (htail : IsDistance tail d) (hbefore : Bytes.isBlank before = true)
    (hafter : Bytes.isBlank after = true) :
    read (before ++ (word ++ tail) ++ after) = ⟨b.1.code + d⟩ := by
  have hvisible : ∀ c ∈ word ++ tail, 0x20 < c ∧ c < 0x80 := by
    intro c hc
    rcases List.mem_append.mp hc with hc | hc
    · exact hword.visible c hc
    · exact ⟨(htail.mem hc).1, UInt8.lt_trans (htail.mem hc).2 (by decide)⟩
  rw [read, Bytes.trim_spaced hbefore hvisible hafter]
  by_cases hbase : b.1 = trace
  · -- The distance from `trace` is read as one from `debug`, and the two are exchanged afterwards.
    obtain ⟨hlength, hlower⟩ := hword.of_trace hbase
    have hdebug : Spells (utf8 "debug") (debug, "debug") := ⟨by decide, .inl rfl⟩
    have hplain := readPlain?_word hdebug.unsigned (hdebug.of_ne_trace (by decide)).1 htail
    have htake : (word ++ tail).take 5 = word := by rw [← hlength, List.take_left]
    have hdrop : (word ++ tail).drop 5 = tail := by rw [← hlength, List.drop_left]
    have hfive : 5 ≤ (word ++ tail).length := by rw [List.length_append]; omega
    simp only [htake, hdrop, hlower, hplain, hfive, decide_true, Bool.and_self, if_true, hbase]
    exact congrArg Level.mk (by grind)
  · obtain ⟨hname, hne, hhead⟩ := hword.of_ne_trace hbase
    have hother : Bytes.lower ((word ++ tail).take 5) ≠ utf8 "trace" := by
      intro heq
      obtain ⟨c, rest, rfl⟩ := List.exists_cons_of_ne_nil hne
      have hfirst : (Bytes.lower ((c :: rest ++ tail).take 5)).head? =
          (Bytes.lower (c :: rest)).head? := rfl
      exact hhead (hfirst.symm.trans (congrArg List.head? heq))
    have hplain := readPlain?_word hword.unsigned hname htail
    simp only [hother, hplain, decide_false, Bool.and_false, Bool.false_eq_true, if_false,
      Option.getD_some]

theorem label_eq {l : Level} {word tail : Bytes} {d : Int64} (htail : IsDistance tail d)
    (hname : l.name = word ++ tail) : l.label = Bytes.upper word ++ tail := by
  have happend : Bytes.upper (word ++ tail) = Bytes.upper word ++ Bytes.upper tail :=
    List.map_append
  rw [label, hname, happend, upper_distance htail]

theorem read_label (l : Level) {before after : Bytes} (hbefore : Bytes.isBlank before = true)
    (hafter : Bytes.isBlank after = true) : read (before ++ l.label ++ after) = l := by
  obtain ⟨b, hb, tail, d, htail, hname, hlevel⟩ := name_eq l
  rw [label_eq htail hname, hlevel]
  exact read_spelled ⟨hb, .inr rfl⟩ htail hbefore hafter

/-- The name of a level is read as the level, in lower case and in upper case and with white space
on both sides. Records show the level by the name in upper case, so the colour that is found by
reading what a record shows is that of its level. -/
theorem read_name_spaced (l : Level) {before after : Bytes} (hbefore : Bytes.isBlank before = true)
    (hafter : Bytes.isBlank after = true) :
    read (before ++ l.name ++ after) = l ∧ read (before ++ l.label ++ after) = l ∧
      ∀ (h : Pretty) (time : Option Bytes) (message : Bytes) (attrs : List Attr),
        (Pretty.levelKey, Leaf.text l.label) ∈ h.fields time l message attrs ∧
          Pretty.look Pretty.levelKey (.text l.label) = ⟨Colour.ofLevel l, l.label, false⟩ := by
  have hlower : read (before ++ l.name ++ after) = l := by
    obtain ⟨b, hb, tail, d, htail, hname, hlevel⟩ := name_eq l
    rw [hname, hlevel]
    exact read_spelled ⟨hb, .inl rfl⟩ htail hbefore hafter
  have hnothing : Bytes.isBlank [] = true := by rw [Bytes.isBlank, Bytes.runes_nil]; rfl
  have hshown : read l.label = l := by
    have hlabel := read_label l hnothing hnothing
    rwa [List.nil_append, List.append_nil] at hlabel
  refine ⟨hlower, read_label l hbefore hafter, fun h time message attrs => ⟨?_, ?_⟩⟩
  · simp [Pretty.fields]
  · rw [Pretty.look, if_pos rfl, hshown]

/-- The least level of all lies so far below `debug` that the distance itself has no counterpart
above it. -/
theorem least_level_read :
    Bytes.isBlank (utf8 "\t") = true ∧ Bytes.isBlank (utf8 "\u00A0\n") = true ∧
    label ⟨Int64.minValue⟩ = utf8 "DEBUG-9223372036854775804" ∧
    read (utf8 "\tDEBUG-9223372036854775804\u00A0\n") = ⟨Int64.minValue⟩ ∧
    Colour.ofLevel ⟨Int64.minValue⟩ = .blue := by
  have hbefore : Bytes.isBlank (utf8 "\t") = true := by cbv
  have hafter : Bytes.isBlank (utf8 "\u00A0\n") = true := by cbv
  have hlabel : label ⟨Int64.minValue⟩ = utf8 "DEBUG-9223372036854775804" := by cbv
  have hread := (read_name_spaced ⟨Int64.minValue⟩ hbefore hafter).2.1
  rw [hlabel] at hread
  exact ⟨hbefore, hafter, hlabel, hread, by decide⟩

end Level

end Scribe
