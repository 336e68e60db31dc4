import Scribe.Proofs.Text.Quoted

/-!
# Phrases

The prefix form apart from what its words mean. A phrase is a word, a quoted text, or a list in
parentheses that a word begins. No word holds a byte that ends words, so the text of a phrase tells
the phrase, and where the text ends.
-/

namespace Scribe

inductive Phrase where
  | word (text : Bytes)
  | quoted (text : Bytes)
  | list (head : Bytes) (parts : List Phrase)

namespace Phrase

mutual

/-- The text of a phrase, followed by `tail`. -/
def onto : Phrase → (tail : Bytes) → Bytes
  | .word text, tail => text ++ tail
  | .quoted text, tail => text.quoted ++ tail
  | .list head parts, tail => 0x28 :: (head ++ partsOnto parts (0x29 :: tail))

def partsOnto : List Phrase → (tail : Bytes) → Bytes
  | [], tail => tail
  | p :: ps, tail => Bytes.space :: onto p (partsOnto ps tail)

end

def lines (ps : List Phrase) : Bytes := ps.flatMap fun p => p.onto [Bytes.lineFeed]

/-- The bytes that end a word. -/
def ends : Bytes := utf8 "\n \"()"

structure Bare (text : Bytes) : Prop where
  ne_nil : text ≠ []
  inside : ∀ b ∈ text, b ∉ ends

def Ended (tail : Bytes) : Prop := ∃ b rest, tail = b :: rest ∧ b ∈ ends

inductive Readable : Phrase → Prop where
  | word {text : Bytes} (h : Bare text) : Readable (.word text)
  | quoted (text : Bytes) : Readable (.quoted text)
  | list {head : Bytes} {parts : List Phrase} (hhead : Bare head)
      (hparts : ∀ p ∈ parts, Readable p) : Readable (.list head parts)

/-! ## The text behind a phrase -/

theorem ended_space (rest : Bytes) : Ended (Bytes.space :: rest) := ⟨_, rest, rfl, by decide⟩

theorem ended_close (rest : Bytes) : Ended (0x29 :: rest) := ⟨_, rest, rfl, by decide⟩

theorem ended_lineFeed (rest : Bytes) : Ended (Bytes.lineFeed :: rest) := ⟨_, rest, rfl, by decide⟩

theorem ended_parts (ps : List Phrase) (tail : Bytes) : Ended (partsOnto ps (0x29 :: tail)) := by
  cases ps with
  | nil => exact ended_close tail
  | cons p ps => exact ended_space _

mutual

theorem onto_append : (p : Phrase) → (tail rest : Bytes) →
    p.onto (tail ++ rest) = p.onto tail ++ rest
  | .word text, tail, rest => (List.append_assoc text tail rest).symm
  | .quoted text, tail, rest => (List.append_assoc text.quoted tail rest).symm
  | .list head parts, tail, rest => by
      simp only [onto, ← List.cons_append, partsOnto_append parts]
      simp

theorem partsOnto_append : (ps : List Phrase) → (tail rest : Bytes) →
    partsOnto ps (tail ++ rest) = partsOnto ps tail ++ rest
  | [], _, _ => rfl
  | p :: ps, tail, rest => by
      simp only [partsOnto, partsOnto_append ps, onto_append p, List.cons_append]

end

/-! ## Texts that tell their phrases -/

theorem Bare.starts {text : Bytes} (h : Bare text) (tail : Bytes) :
    ∃ b more, text ++ tail = b :: more ∧ b ∉ ends := by
  cases text with
  | nil => exact absurd rfl h.ne_nil
  | cons b text => exact ⟨b, text ++ tail, rfl, h.inside b List.mem_cons_self⟩

/-- A word in front of a byte that ends it. -/
theorem word_unique {text text' tail tail' : Bytes} (h : ∀ b ∈ text, b ∉ ends)
    (h' : ∀ b ∈ text', b ∉ ends) (htail : Ended tail) (htail' : Ended tail')
    (heq : text ++ tail = text' ++ tail') : text = text' ∧ tail = tail' := by
  obtain ⟨b, rest, rfl, hb⟩ := htail
  obtain ⟨b', rest', rfl, hb'⟩ := htail'
  induction text generalizing text' with
  | nil =>
      cases text' with
      | nil => exact ⟨rfl, heq⟩
      | cons c text' =>
          obtain rfl : b = c := (List.cons.inj heq).1
          exact absurd hb (h' b List.mem_cons_self)
  | cons c text ih =>
      cases text' with
      | nil =>
          obtain rfl : c = b' := (List.cons.inj heq).1
          exact absurd hb' (h c List.mem_cons_self)
      | cons c' text' =>
          obtain ⟨rfl, hmore⟩ := List.cons.inj heq
          obtain ⟨rfl, htails⟩ := ih (fun d hd => h d (List.mem_cons_of_mem c hd))
            (fun d hd => h' d (List.mem_cons_of_mem c hd)) hmore
          exact ⟨rfl, htails⟩

/-- No other readable phrase has the text of `p` in front of a byte that ends a word. -/
def Told (p : Phrase) : Prop :=
  ∀ q : Phrase, q.Readable → ∀ tail tail' : Bytes, Ended tail → Ended tail' →
    p.onto tail = q.onto tail' → p = q ∧ tail = tail'

theorem parts_told {ps qs : List Phrase} (hps : ∀ p ∈ ps, Told p) (hqs : ∀ q ∈ qs, q.Readable)
    {tail tail' : Bytes} (h : partsOnto ps (0x29 :: tail) = partsOnto qs (0x29 :: tail')) :
    ps = qs ∧ tail = tail' := by
  induction ps generalizing qs with
  | nil =>
      cases qs with
      | nil => exact ⟨rfl, (List.cons.inj h).2⟩
      | cons q qs => exact absurd (List.cons.inj h).1 (by decide)
  | cons p ps ih =>
      cases qs with
      | nil => exact absurd (List.cons.inj h).1 (by decide)
      | cons q qs =>
          obtain ⟨rfl, hrest⟩ := hps p List.mem_cons_self q (hqs q List.mem_cons_self) _ _
            (ended_parts ps tail) (ended_parts qs tail') (List.cons.inj h).2
          obtain ⟨rfl, htail⟩ := ih (fun r hr => hps r (List.mem_cons_of_mem p hr))
            (fun r hr => hqs r (List.mem_cons_of_mem p hr)) hrest
          exact ⟨rfl, htail⟩

theorem Readable.told {p : Phrase} (hp : p.Readable) : p.Told := by
  induction hp with
  | @word text hbare =>
      intro q hq tail tail' htail htail' heq
      obtain ⟨b, more, hstart, hb⟩ := hbare.starts tail
      cases hq with
      | word hbare' =>
          obtain ⟨rfl, htails⟩ := word_unique hbare.inside hbare'.inside htail htail' heq
          exact ⟨rfl, htails⟩
      | quoted text' =>
          obtain rfl : b = Bytes.quote := (List.cons.inj (hstart.symm.trans heq)).1
          exact absurd (by decide) hb
      | list _ _ =>
          obtain rfl : b = 0x28 := (List.cons.inj (hstart.symm.trans heq)).1
          exact absurd (by decide) hb
  | quoted text =>
      intro q hq tail tail' htail htail' heq
      cases hq with
      | word hbare' =>
          obtain ⟨b, more, hstart, hb⟩ := hbare'.starts tail'
          obtain rfl : b = Bytes.quote := (List.cons.inj (hstart.symm.trans heq.symm)).1
          exact absurd (by decide) hb
      | quoted text' =>
          obtain ⟨rfl, htails⟩ := Bytes.quoted_injective heq
          exact ⟨rfl, htails⟩
      | list _ _ => exact absurd (List.cons.inj heq).1 (by decide)
  | @list head parts hhead _ ih =>
      intro q hq tail tail' htail htail' heq
      cases hq with
      | word hbare' =>
          obtain ⟨b, more, hstart, hb⟩ := hbare'.starts tail'
          obtain rfl : b = 0x28 := (List.cons.inj (hstart.symm.trans heq.symm)).1
          exact absurd (by decide) hb
      | quoted _ => exact absurd (List.cons.inj heq).1 (by decide)
      | @list head' parts' hhead' hparts' =>
          obtain ⟨rfl, hrest⟩ := word_unique hhead.inside hhead'.inside (ended_parts parts tail)
            (ended_parts parts' tail') (List.cons.inj heq).2
          obtain ⟨rfl, htails⟩ := parts_told ih hparts' hrest
          exact ⟨rfl, htails⟩

/-- The texts of phrases on lines of their own tell the phrases. -/
theorem lines_injective {ps qs : List Phrase} (hps : ∀ p ∈ ps, p.Readable)
    (hqs : ∀ q ∈ qs, q.Readable) (h : lines ps = lines qs) : ps = qs := by
  have hcons : ∀ (p : Phrase) (rest : List Phrase),
      lines (p :: rest) = p.onto (Bytes.lineFeed :: lines rest) :=
    fun p rest => (p.onto_append [Bytes.lineFeed] (lines rest)).symm
  have hsome : ∀ (p : Phrase) (rest : List Phrase), lines (p :: rest) ≠ [] := by
    intro p rest hnil
    rw [hcons, ← List.nil_append (_ :: _), onto_append] at hnil
    simp at hnil
  induction ps generalizing qs with
  | nil =>
      cases qs with
      | nil => rfl
      | cons q qs => exact absurd h.symm (hsome q qs)
  | cons p ps ih =>
      cases qs with
      | nil => exact absurd h (hsome p ps)
      | cons q qs =>
          rw [hcons, hcons] at h
          obtain ⟨rfl, hrest⟩ := (hps p List.mem_cons_self).told q (hqs q List.mem_cons_self) _ _
            (ended_lineFeed _) (ended_lineFeed _) h
          rw [ih (fun r hr => hps r (List.mem_cons_of_mem p hr))
            (fun r hr => hqs r (List.mem_cons_of_mem p hr)) (List.cons.inj hrest).2]

end Phrase

end Scribe
