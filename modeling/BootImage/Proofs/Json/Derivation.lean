import BootImage.Proofs.Json.Grammar

/-!
# The values that tokens write

The tokens of a value are read one at a time, with the arrays and objects that are open kept in a
list. `Phrase.ReadBy` says where that leads for each kind of phrase, whatever stands around it, and
`Assembly.Read` says which tokens can have led to a state. The first is shown by induction on the
derivation, the second one token after the other, and together they make the reader read exactly
what is derived.
-/

namespace BootImage.Json

open Grammar

namespace Grammar

/-- What is read when a phrase has been read, wherever it stands. -/
def Phrase.ReadBy (ts : List Token) : Phrase → Prop
  | .value d => ∀ around rest,
      (Assembly.value around).run (ts ++ rest) = (Assembly.deliver d around).run rest
  | .items ds => ∀ read around rest,
      (Assembly.value (.array read :: around)).run (ts ++ .closeArray :: rest) =
        (Assembly.deliver (.array (read.reverse ++ ds)) around).run rest
  | .members ms => ∀ read around rest,
      (Assembly.nextKey read around).run (ts ++ .closeObject :: rest) =
        (Assembly.deliver (.object (Members.ofList (read.reverse ++ ms))) around).run rest
  | .object written => ∀ around rest,
      (Assembly.value around).run (ts ++ rest) =
        (Assembly.deliver (.object (Members.ofList written)) around).run rest

theorem Derives.exists_cons {p : Phrase} {ts : List Token} (h : Derives p ts) :
    ∃ t us, ts = t :: us ∧ t ≠ .closeArray := by
  induction h with
  | item _ ih => exact ih
  | object _ ih => exact ih
  | nextItem _ _ ih _ =>
      obtain ⟨t, us, rfl, ht⟩ := ih
      exact ⟨t, _, rfl, ht⟩
  | _ => exact ⟨_, _, rfl, by simp⟩

theorem Derives.firstItem_run {p : Phrase} {ts : List Token} (h : Derives p ts)
    (around : List Open) (rest : List Token) :
    (Assembly.firstItem around).run (ts ++ rest) =
      (Assembly.value (.array [] :: around)).run (ts ++ rest) := by
  obtain ⟨t, us, rfl, ht⟩ := h.exists_cons
  cases t with
  | closeArray => exact absurd rfl ht
  | _ => rfl

theorem Derives.firstKey_run {ms : List (WideText × Json)} {ts : List Token}
    (h : Derives (.members ms) ts) (around : List Open) (rest : List Token) :
    (Assembly.firstKey around).run (ts ++ rest) =
      (Assembly.nextKey [] around).run (ts ++ rest) := by
  cases h <;> rfl

theorem Derives.readBy {p : Phrase} {ts : List Token} (h : Derives p ts) : p.ReadBy ts := by
  -- `ReadBy` speaks of all that has been read already, so the hypotheses apply after each item
  induction h with
  | null | true | false | number literal | string text | emptyArray | emptyObject =>
      intro around rest
      rfl
  | array h ih =>
      intro around rest
      have begun := h.firstItem_run around (.closeArray :: rest)
      rw [ih, List.reverse_nil, List.nil_append] at begun
      rw [List.cons_append, List.append_assoc]
      exact begun
  | item h ih =>
      intro read around rest
      rw [ih]
      change ((Assembly.deliver (.array _) around)).run rest = _
      rw [List.reverse_cons]
  | nextItem h rest ih ih' =>
      intro read around more
      rw [List.append_assoc, ih, List.cons_append]
      refine (ih' _ around more).trans ?_
      rw [List.reverse_cons, List.append_assoc, List.singleton_append]
  | bracedMembers h ih =>
      intro around rest
      have begun := h.firstKey_run around (.closeObject :: rest)
      rw [ih, List.reverse_nil, List.nil_append] at begun
      rw [List.cons_append, List.append_assoc]
      exact begun
  | member key h ih =>
      intro read around rest
      refine (ih _ _).trans ?_
      change ((Assembly.deliver (.object _) around)).run rest = _
      rw [List.reverse_cons]
  | @nextMember key d ms ts us h rest ih ih' =>
      intro read around more
      have valued := ih (.object read key :: around) (.comma :: us ++ .closeObject :: more)
      rw [← List.append_assoc] at valued
      refine valued.trans ?_
      refine (ih' _ around more).trans ?_
      rw [List.reverse_cons, List.append_assoc, List.singleton_append]
  | object h ih => exact ih

theorem Derives.append_item {ds : List Json} {d : Json} {ts us : List Token}
    (h : Derives (.items ds) ts) (hd : Derives (.value d) us) :
    Derives (.items (ds ++ [d])) (ts ++ .comma :: us) := by
  -- derivations grow at the front, so the new item is handed down to the last one
  generalize hp : Phrase.items ds = p at h
  induction h generalizing ds with
  | item h ih =>
    cases hp
    exact .nextItem h (.item hd)
  | nextItem h rest ih ih' =>
    cases hp
    have := ih' rfl
    rw [List.append_assoc]
    exact .nextItem h this
  | _ => cases hp

theorem Derives.append_member {ms : List (WideText × Json)} (key : WideText) {d : Json}
    {ts us : List Token} (h : Derives (.members ms) ts) (hd : Derives (.value d) us) :
    Derives (.members (ms ++ [(key, d)])) (ts ++ .comma :: .string key :: .colon :: us) := by
  generalize hp : Phrase.members ms = p at h
  induction h generalizing ms with
  | member key h ih =>
    cases hp
    exact .nextMember _ h (.member _ hd)
  | nextMember key h rest ih ih' =>
    cases hp
    have := ih' rfl
    simp only [List.append_assoc, List.cons_append]
    exact .nextMember _ h this
  | _ => cases hp

end Grammar

/-- The tokens read before the value that is due within some open arrays and objects. -/
inductive Before : List Open → List Token → Prop
  | nil : Before [] []
  | firstItem {around : List Open} {ts : List Token} (h : Before around ts) :
      Before (.array [] :: around) (ts ++ [.openArray])
  | nextItem {around : List Open} {ts us : List Token} {read : List Json} (h : Before around ts)
      (items : Derives (.items read.reverse) us) :
      Before (.array read :: around) (ts ++ .openArray :: (us ++ [.comma]))
  | firstMember {around : List Open} {ts : List Token} {key : WideText} (h : Before around ts) :
      Before (.object [] key :: around) (ts ++ [.openObject, .string key, .colon])
  | nextMember {around : List Open} {ts us : List Token} {read : List (WideText × Json)}
      {key : WideText} (h : Before around ts) (members : Derives (.members read.reverse) us) :
      Before (.object read key :: around)
        (ts ++ .openObject :: (us ++ [.comma, .string key, .colon]))

def Assembly.Read (ts : List Token) : Assembly → Prop
  | value around => Before around ts
  | firstItem around => ∃ us, ts = us ++ [.openArray] ∧ Before around us
  | afterItem read around => ∃ us vs, ts = us ++ .openArray :: vs ∧ Before around us ∧
      Derives (.items read.reverse) vs
  | firstKey around => ∃ us, ts = us ++ [.openObject] ∧ Before around us
  | nextKey read around => ∃ us vs, ts = us ++ .openObject :: (vs ++ [.comma]) ∧
      Before around us ∧ Derives (.members read.reverse) vs
  | afterKey read key around => Before (.object read key :: around) (ts ++ [.colon])
  | afterMember read around => ∃ us vs, ts = us ++ .openObject :: vs ∧ Before around us ∧
      Derives (.members read.reverse) vs
  | complete d => Derives (.value d) ts

namespace Assembly

theorem read_deliver {around : List Open} {d : Json} {ts us : List Token} (h : Before around ts)
    (hd : Derives (.value d) us) : (deliver d around).Read (ts ++ us) := by
  cases h with
  | nil => exact hd
  | firstItem h => exact ⟨_, us, by simp, h, .item hd⟩
  | nextItem h items =>
      have items' := items.append_item hd
      rw [← List.reverse_cons] at items'
      exact ⟨_, _, by simp, h, items'⟩
  | firstMember h => exact ⟨_, _, by simp, h, .member _ hd⟩
  | @nextMember around ts us read key h members =>
      have members' := members.append_member key hd
      rw [← List.reverse_cons] at members'
      exact ⟨_, _, by simp, h, members'⟩

theorem read_begin {around : List Open} {t : Token} {a : Assembly} {ts : List Token}
    (h : Before around ts) (ha : begin around t = some a) : a.Read (ts ++ [t]) := by
  cases t with
  | openArray | openObject =>
      cases ha
      exact ⟨ts, rfl, h⟩
  | null | true | false | number literal | string text =>
      cases ha
      exact read_deliver h (by constructor)
  | _ => cases ha

theorem read_step {a a' : Assembly} {t : Token} {ts : List Token} (h : a.Read ts)
    (ha : a.step t = some a') : a'.Read (ts ++ [t]) := by
  cases a with
  | value around => exact read_begin h ha
  | firstItem around =>
      obtain ⟨us, rfl, h⟩ := h
      by_cases ht : t = .closeArray
      · subst ht
        cases ha
        rw [List.append_assoc]
        exact read_deliver h .emptyArray
      · -- anything but the end of the array begins its first item
        have begun : begin (.array [] :: around) t = some a' := by
          cases t with
          | closeArray => exact absurd rfl ht
          | _ => exact ha
        exact read_begin (.firstItem h) begun
  | afterItem read around =>
      obtain ⟨us, vs, rfl, h, items⟩ := h
      cases t with
      | comma =>
          cases ha
          simpa [Read] using Before.nextItem h items
      | closeArray =>
          cases ha
          simpa using read_deliver h (.array items)
      | _ => cases ha
  | firstKey around =>
      obtain ⟨us, rfl, h⟩ := h
      cases t with
      | closeObject =>
          cases ha
          simpa using read_deliver h (.object .emptyObject)
      | string key =>
          cases ha
          simpa [Read] using Before.firstMember h
      | _ => cases ha
  | nextKey read around =>
      obtain ⟨us, vs, rfl, h, members⟩ := h
      cases t with
      | string key =>
          cases ha
          simpa [Read] using Before.nextMember h members
      | _ => cases ha
  | afterKey read key around =>
      cases t with
      | colon =>
          cases ha
          exact h
      | _ => cases ha
  | afterMember read around =>
      obtain ⟨us, vs, rfl, h, members⟩ := h
      cases t with
      | comma =>
          cases ha
          exact ⟨us, vs, by simp, h, members⟩
      | closeObject =>
          cases ha
          simpa using read_deliver h (.object (.bracedMembers members))
      | _ => cases ha
  | complete d => cases t <;> cases ha

theorem read_run {a a' : Assembly} {ts us : List Token} (h : a.Read ts)
    (ha : a.run us = some a') : a'.Read (ts ++ us) := by
  induction us generalizing a ts with
  | nil =>
      cases ha
      simpa using h
  | cons t us ih =>
      rw [run_cons, Option.bind_eq_some_iff] at ha
      obtain ⟨b, hb, hb'⟩ := ha
      simpa using ih (read_step h hb) hb'

end Assembly

/-- Tokens write a value exactly if they are derived from it. -/
theorem ofTokens?_eq_some_iff {ts : List Token} {d : Json} :
    ofTokens? ts = some d ↔ Derives (.value d) ts := by
  rw [ofTokens?, Option.bind_eq_some_iff]
  constructor
  · rintro ⟨a, ha, hd⟩
    have begun : (Assembly.value []).Read [] := Before.nil
    have read := Assembly.read_run begun ha
    cases a with
    | complete v =>
        cases hd
        exact read
    | _ => cases hd
  · intro h
    have run := h.readBy [] []
    rw [List.append_nil] at run
    exact ⟨.complete d, run, rfl⟩

end BootImage.Json
