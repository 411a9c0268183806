import ScriptHost.Toml.Document

/-!
# The integers of a document

A TOML integer has 64 bits and a sign, wherever in a document it stands: `read?_fits`. Single
numbers are refused when they are out of bounds. From there the bounds are carried to the whole
document by `Change.Keeps`: every change that a statement makes to the tree of entries only adds
values that were read.
-/

namespace ScriptHost.Toml

/-- Every integer in a value has 64 bits. -/
inductive Value.Fits : Value → Prop
  | string (s : String) : Fits (.string s)
  | integer {n : Int} (h : fits64 n = true) : Fits (.integer n)
  | float : Fits .float
  | boolean (b : Bool) : Fits (.boolean b)
  | datetime (text : String) : Fits (.datetime text)
  | array {items : List Value} (h : ∀ item ∈ items, Fits item) : Fits (.array items)
  | table {members : List (String × Value)} (h : ∀ member ∈ members, Fits member.2) :
      Fits (.table members)

/-- Every integer in an entry has 64 bits. -/
inductive Entry.Fits : Entry → Prop
  | value {v : Value} (h : v.Fits) : Fits (.value v)
  | table {origin : Origin} {members : Members} (h : ∀ member ∈ members, Fits member.2) :
      Fits (.table origin members)
  | tables {elements : List Members} (h : ∀ members ∈ elements, ∀ member ∈ members, Fits member.2) :
      Fits (.tables elements)

/-- Every integer in the members of a table has 64 bits. -/
def Members.Fits (members : Members) : Prop :=
  ∀ member ∈ members, member.2.Fits

/-- A change that keeps the integers of a table within 64 bits. -/
def Change.Keeps (change : Change) : Prop :=
  ∀ origin members changed, Members.Fits members → change origin members = some changed →
    Members.Fits changed

variable {key : String} {entry : Entry} {members : Members} {v : Value} {cs rest : List Char}

/-! ## Changes of tables -/

theorem Members.fits_nil : Members.Fits [] :=
  fun _ h => absurd h List.not_mem_nil

theorem Members.Fits.append (h : Members.Fits members) (hentry : entry.Fits) :
    Members.Fits (members ++ [(key, entry)]) := by
  intro member hmember
  rcases List.mem_append.mp hmember with hmember | hmember
  · exact h member hmember
  · obtain rfl := List.mem_singleton.mp hmember
    exact hentry

theorem Members.Fits.replace (h : Members.Fits members) (hentry : entry.Fits) :
    Members.Fits (replace key entry members) := by
  unfold Toml.replace
  split
  · intro member hmember
    obtain ⟨⟨k, e⟩, hold, rfl⟩ := List.mem_map.mp hmember
    by_cases hk : k == key
    · simpa [hk] using hentry
    · simpa [hk] using h (k, e) hold
  · exact h.append hentry

theorem Members.Fits.find? (h : Members.Fits members) (hfind : find? key members = some entry) :
    entry.Fits := by
  obtain ⟨member, hmember, rfl⟩ := Option.map_eq_some_iff.mp hfind
  exact h member (List.mem_of_find?_eq_some hmember)

/-- A change deep inside a table keeps its integers within bounds if the change itself does. -/
theorem Change.Keeps.descend {change : Change} (h : change.Keeps) (dotted : Bool)
    (path : List String) : Change.Keeps (descend dotted change path) := by
  induction path with
  | nil => exact h
  | cons key path ih =>
      intro origin members changed hmembers hchange
      simp only [Toml.descend] at hchange
      cases hfind : find? key members with
      | none =>
          simp only [hfind, Option.bind_eq_bind, Option.bind_eq_some_iff] at hchange
          obtain ⟨sub, hsub, hchanged⟩ := hchange
          obtain rfl := Option.some.inj hchanged
          exact hmembers.replace (.table (ih _ _ _ Members.fits_nil hsub))
      | some entry =>
          cases hmembers.find? hfind with
          | value => simp [hfind] at hchange
          | table hsub =>
              simp only [hfind] at hchange
              split at hchange
              · cases hchange
              · simp only [Option.bind_eq_bind, Option.bind_eq_some_iff] at hchange
                obtain ⟨changedSub, hchangedSub, hchanged⟩ := hchange
                obtain rfl := Option.some.inj hchanged
                exact hmembers.replace (.table (ih _ _ _ hsub hchangedSub))
          | @tables elements helements =>
              simp only [hfind] at hchange
              cases hlast : elements.getLast? with
              | none => simp [hlast] at hchange
              | some last =>
                  simp only [hlast, Option.bind_eq_bind, Option.bind_eq_some_iff] at hchange
                  obtain ⟨changedLast, hchangedLast, hchanged⟩ := hchange
                  obtain rfl := Option.some.inj hchanged
                  have hfits := ih _ _ _ (helements last (List.mem_of_getLast? hlast)) hchangedLast
                  refine hmembers.replace (.tables fun element helement => ?_)
                  rcases List.mem_append.mp helement with helement | helement
                  · exact helements element (List.dropLast_subset _ helement)
                  · obtain rfl := List.mem_singleton.mp helement
                    exact hfits

/-- Giving a table a value keeps its integers within bounds if the value does. -/
theorem addValue_keeps (h : v.Fits) (viaDots : Bool) (key : String) :
    Change.Keeps (addValue viaDots key v) := by
  intro origin members changed hmembers hchange
  unfold addValue at hchange
  split at hchange
  · cases hchange
  · split at hchange
    · cases hchange
    · obtain rfl := Option.some.inj hchange
      exact hmembers.append (.value h)

theorem defineTable_keeps (key : String) : Change.Keeps (defineTable key) := by
  intro origin members changed hmembers hchange
  unfold defineTable at hchange
  split at hchange
  · obtain rfl := Option.some.inj hchange
    exact hmembers.append (.table Members.fits_nil)
  · rename_i sub hfind
    split at hchange
    · obtain rfl := Option.some.inj hchange
      cases hmembers.find? hfind with
      | table hsub => exact hmembers.replace (.table hsub)
    · cases hchange
  · cases hchange

theorem addElement_keeps (key : String) : Change.Keeps (addElement key) := by
  intro origin members changed hmembers hchange
  have hempty : ∀ element ∈ ([[]] : List Members), Members.Fits element := by
    intro element helement
    obtain rfl := List.mem_singleton.mp helement
    exact Members.fits_nil
  unfold addElement at hchange
  split at hchange
  · obtain rfl := Option.some.inj hchange
    exact hmembers.append (.tables hempty)
  · rename_i elements hfind
    obtain rfl := Option.some.inj hchange
    cases hmembers.find? hfind with
    | tables helements =>
        refine hmembers.replace (.tables fun element helement => ?_)
        rcases List.mem_append.mp helement with helement | helement
        · exact helements element helement
        · exact hempty element helement
  · cases hchange

/-! ## Finished entries -/

theorem membersToValues_eq (members : Members) :
    Entry.membersToValues members = members.map fun member => (member.1, member.2.toValue) := by
  induction members with
  | nil => rfl
  | cons member members ih =>
      show (member.1, member.2.toValue) :: Entry.membersToValues members = _
      rw [ih]
      rfl

theorem elementsToValues_eq (elements : List Members) :
    Entry.elementsToValues elements =
      elements.map fun members => .table (Entry.membersToValues members) := by
  induction elements with
  | nil => rfl
  | cons members elements ih =>
      show .table (Entry.membersToValues members) :: Entry.elementsToValues elements = _
      rw [ih]
      rfl

/-- A table fits if the values of its members do. -/
theorem fits_membersToValues {members : Members}
    (h : ∀ member ∈ members, member.2.toValue.Fits) :
    Value.Fits (.table (Entry.membersToValues members)) := by
  refine .table fun member hmember => ?_
  rw [membersToValues_eq] at hmember
  obtain ⟨old, hold, rfl⟩ := List.mem_map.mp hmember
  exact h old hold

/-- A finished entry has the integers of the entry. -/
theorem Entry.Fits.toValue (h : entry.Fits) : entry.toValue.Fits := by
  induction h with
  | value h => simpa [Entry.toValue] using h
  | table _ ih =>
      rw [Entry.toValue]
      exact fits_membersToValues ih
  | tables _ ih =>
      rw [Entry.toValue, elementsToValues_eq]
      refine .array fun item hitem => ?_
      obtain ⟨members, hmembers, rfl⟩ := List.mem_map.mp hitem
      exact fits_membersToValues (ih members hmembers)

/-! ## Numbers -/

/-- A value that fits is read where it is what was found. -/
theorem fits_of_some {found : Value × List Char} (hfound : found.1.Fits)
    (h : some found = some (v, rest)) : v.Fits := by
  obtain rfl := Option.some.inj h
  exact hfound

/-- A value that fits is read where it is made of what was found. -/
theorem fits_of_map {α : Type} {found : Option α} {make : α → Value × List Char}
    (hmake : ∀ a, (make a).1.Fits) (h : found.map make = some (v, rest)) : v.Fits := by
  obtain ⟨a, -, hmade⟩ := Option.map_eq_some_iff.mp h
  exact fits_of_some (hmake a) (congrArg some hmade)

theorem basedInteger?_fits {isDigit : Char → Bool} {base : Nat}
    (h : basedInteger? isDigit base cs = some (v, rest)) : v.Fits := by
  simp only [basedInteger?, Option.bind_eq_bind, Option.bind_eq_some_iff] at h
  obtain ⟨digits, -, n, -, h⟩ := h
  split at h
  · rename_i hn
    refine fits_of_some (.integer ?_) h
    unfold fits64
    have hbound : Nat.pow 2 63 = 9223372036854775808 := rfl
    have hbound' : Int.pow 2 63 = 9223372036854775808 := rfl
    simp only [hbound', Bool.and_eq_true, decide_eq_true_eq]
    omega
  · cases h

theorem integer?_fits (h : integer? cs = some (v, rest)) : v.Fits := by
  unfold integer? at h
  split at h
  · exact basedInteger?_fits h
  · exact basedInteger?_fits h
  · exact basedInteger?_fits h
  · simp only [Option.bind_eq_bind, Option.bind_eq_some_iff] at h
    obtain ⟨⟨digits, behind⟩, -, h⟩ := h
    have hchecked (n : Int) (hn : (if fits64 n then some (Value.integer n, behind) else none) =
        some (v, rest)) : v.Fits := by
      split at hn
      · rename_i hfits
        exact fits_of_some (.integer hfits) hn
      · cases hn
    exact hchecked _ h

/-- What is read as a float is a float. -/
theorem float?_fits (h : float? cs = some (v, rest)) : v.Fits := by
  unfold float? at h
  dsimp only at h
  split at h
  · exact fits_of_some .float h
  · exact fits_of_some .float h
  · simp only [Option.bind_eq_bind, Option.bind_eq_some_iff] at h
    obtain ⟨_, -, _, -, h⟩ := h
    split at h
    · cases h
    · exact fits_of_some .float h

/-- What is read as a date is a date. -/
theorem datetime?_fits (h : datetime? cs = some (v, rest)) : v.Fits := by
  unfold datetime? at h
  split at h
  · exact fits_of_map (fun _ => .datetime _) h
  · dsimp only at h
    split at h
    · exact fits_of_some (.datetime _) h
    · split at h
      · exact fits_of_some (.datetime _) h
      · exact fits_of_some (.datetime _) h

theorem numberOrDate?_fits (h : numberOrDate? cs = some (v, rest)) : v.Fits := by
  unfold numberOrDate? at h
  cases hdate : datetime? cs with
  | some found =>
      rw [hdate] at h
      obtain rfl := Option.some.inj h
      exact datetime?_fits hdate
  | none =>
      cases hfloat : float? cs with
      | some found =>
          rw [hdate, hfloat] at h
          obtain rfl := Option.some.inj h
          exact float?_fits hfloat
      | none =>
          rw [hdate, hfloat] at h
          exact integer?_fits h

/-! ## Values -/

theorem addInline_fits {path : List String} {changed : Members} (h : Members.Fits members)
    (hv : v.Fits) (hadd : addInline members path v = some changed) : Members.Fits changed := by
  unfold addInline at hadd
  split at hadd
  · cases hadd
  · exact (addValue_keeps hv _ _).descend true _ _ _ _ h hadd

/-- The three readers of values, each with what it holds so far. The induction is on the fuel that
they share, as they call each other. -/
theorem readers_fit (fuel : Nat) :
    (∀ depth cs v rest, value? fuel depth cs = some (v, rest) → v.Fits) ∧
    (∀ depth read cs v rest, (∀ item ∈ read, item.Fits) →
      arrayItems? fuel depth read cs = some (v, rest) → v.Fits) ∧
    (∀ depth members cs v rest, Members.Fits members →
      inlineMembers? fuel depth members cs = some (v, rest) → v.Fits) := by
  induction fuel with
  | zero => simp [value?, arrayItems?, inlineMembers?]
  | succ fuel ih =>
      obtain ⟨hvalue, harray, hinline⟩ := ih
      refine ⟨?_, ?_, ?_⟩
      · intro depth cs v rest h
        unfold value? at h
        split at h
        · cases h
        · split at h
          · exact fits_of_map (fun _ => .string _) h
          split at h
          · cases depth with
            | zero => cases h
            | succ depth => exact harray depth [] _ v rest (by simp) h
          split at h
          · cases depth with
            | zero => cases h
            | succ depth =>
                dsimp only at h
                split at h
                · exact fits_of_some (.table fun _ hmember => absurd hmember List.not_mem_nil) h
                · exact hinline depth [] _ v rest Members.fits_nil h
          split at h
          · exact fits_of_map (fun _ => .boolean _) h
          split at h
          · exact fits_of_map (fun _ => .boolean _) h
          split at h
          · exact float?_fits h
          split at h
          · exact numberOrDate?_fits h
          · cases h
      · intro depth read cs v rest hread h
        unfold arrayItems? at h
        simp only [Option.bind_eq_bind, Option.bind_eq_some_iff] at h
        obtain ⟨ahead, -, h⟩ := h
        split at h
        · exact fits_of_some (.array fun item hitem => hread item (List.mem_reverse.mp hitem)) h
        · simp only [Option.bind_eq_some_iff] at h
          obtain ⟨⟨item, behind⟩, hitem, _, -, h⟩ := h
          have hitems : ∀ other ∈ item :: read, other.Fits :=
            List.forall_mem_cons.mpr ⟨hvalue depth _ item behind hitem, hread⟩
          split at h
          · exact harray depth (item :: read) _ v rest hitems h
          · refine fits_of_some (.array fun other hother => ?_) h
            exact hitems other (List.mem_reverse.mp hother)
          · cases h
      · intro depth members cs v rest hmembers h
        unfold inlineMembers? at h
        simp only [Option.bind_eq_bind, Option.bind_eq_some_iff] at h
        obtain ⟨⟨key, _⟩, -, _, -, ⟨item, behind⟩, hitem, more, hadd, h⟩ := h
        have hmore : Members.Fits more :=
          addInline_fits hmembers (hvalue depth _ item behind hitem) hadd
        split at h
        · exact hinline depth more _ v rest hmore h
        · refine fits_of_some (fits_membersToValues fun member hmember => ?_) h
          exact (hmore member hmember).toValue
        · cases h

theorem value?_fits {fuel depth : Nat} (h : value? fuel depth cs = some (v, rest)) : v.Fits :=
  (readers_fit fuel).1 depth cs v rest h

/-! ## Documents -/

namespace Draft

variable {draft next : Draft}

theorem readHeader?_fits (h : Members.Fits draft.root)
    (hread : draft.readHeader? cs = some (next, rest)) : Members.Fits next.root := by
  unfold readHeader? at hread
  split at hread
  rename_i isArray ahead _
  cases isArray with
  | true =>
      simp only [Option.bind_eq_bind, Option.bind_eq_some_iff, if_true] at hread
      obtain ⟨⟨path, _⟩, -, _, -, _, -, last, -, root, hroot, _, -, hread⟩ := hread
      obtain ⟨rfl, -⟩ := Prod.mk.inj (Option.some.inj hread)
      exact (addElement_keeps last).descend false path.dropLast _ _ _ h hroot
  | false =>
      simp only [Option.bind_eq_bind, Option.bind_eq_some_iff, Bool.false_eq_true, if_false]
        at hread
      obtain ⟨⟨path, _⟩, -, _, -, _, -, last, -, root, hroot, _, -, hread⟩ := hread
      obtain ⟨rfl, -⟩ := Prod.mk.inj (Option.some.inj hread)
      exact (defineTable_keeps last).descend false path.dropLast _ _ _ h hroot

theorem readMember?_fits (h : Members.Fits draft.root)
    (hread : draft.readMember? cs = some (next, rest)) : Members.Fits next.root := by
  unfold readMember? at hread
  simp only [Option.bind_eq_bind, Option.bind_eq_some_iff] at hread
  obtain ⟨⟨path, _⟩, -, _, -, ⟨item, behind⟩, hitem, last, -, root, hroot, _, -, hread⟩ := hread
  obtain ⟨rfl, -⟩ := Prod.mk.inj (Option.some.inj hread)
  have hadd : Change.Keeps (addValue (decide (path.length > 1)) last item) :=
    addValue_keeps (value?_fits hitem) _ last
  exact (hadd.descend true path.dropLast).descend false draft.header _ _ _ h hroot

/-- Reading statements keeps the integers of a document within bounds. -/
theorem readAll?_fits {fuel : Nat} (h : Members.Fits draft.root)
    (hread : readAll? fuel draft cs = some next) : Members.Fits next.root := by
  induction fuel generalizing draft cs with
  | zero =>
      unfold readAll? at hread
      split at hread
      · obtain rfl := Option.some.inj hread
        exact h
      · cases hread
      · contradiction
  | succ fuel ih =>
      unfold readAll? at hread
      dsimp only at hread
      split at hread
      · obtain rfl := Option.some.inj hread
        exact h
      · contradiction
      · rename_i fuel' heq _
        obtain rfl := Nat.succ.inj heq
        split at hread
        · simp only [Option.bind_eq_bind, Option.bind_eq_some_iff] at hread
          obtain ⟨_, -, hread⟩ := hread
          exact ih h hread
        · exact ih h hread
        · exact ih h hread
        · simp only [Option.bind_eq_bind, Option.bind_eq_some_iff] at hread
          obtain ⟨_, hheader, hread⟩ := hread
          exact ih (readHeader?_fits h hheader) hread
        · simp only [Option.bind_eq_bind, Option.bind_eq_some_iff] at hread
          obtain ⟨_, hmember, hread⟩ := hread
          exact ih (readMember?_fits h hmember) hread

end Draft

/-- The integers of a document have 64 bits. -/
theorem read?_fits {text : String} (h : read? text = some v) : v.Fits := by
  simp only [read?, Option.bind_eq_bind, Option.bind_eq_some_iff] at h
  obtain ⟨draft, hread, h⟩ := h
  obtain rfl := Option.some.inj h
  have hroot : Members.Fits draft.root := Draft.readAll?_fits Members.fits_nil hread
  exact fits_membersToValues fun member hmember => (hroot member hmember).toValue

end ScriptHost.Toml
