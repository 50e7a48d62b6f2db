/-
Reading members in any order.

The members of a record are read one after another onto those before, and
a key that comes again is an error. Where no key that names a field comes
again, order does not matter: whether all of them can be read, and what
is read for each, is a matter of which members there are. A member that
says no more than that a value is absent is always read, and to nothing;
one with an unknown key is not looked at. So such idle members can come
and go: what the record holds stays the same (`readMembers_idle`).
-/
import TreeCheck.Proofs.Drafts.Redraft
import TreeCheck.Proofs.Loading.Records
import TreeCheck.Proofs.Loading.Root

namespace TreeCheck.Document

open Json (Value)

-- ============================================================ likeness

/-- Both fail, or both give results that some function does not tell apart. -/
inductive Alike {ε α β : Type} (f : α → β) : Except ε α → Except ε α → Prop where
  | failed (e e' : ε) : Alike f (.error e) (.error e')
  | given {a a' : α} (h : f a = f a') : Alike f (.ok a) (.ok a')

namespace Alike

variable {ε α β γ δ : Type} {f : α → β} {g : γ → δ} {r r' r'' : Except ε α}

theorem refl (f : α → β) (r : Except ε α) : Alike f r r := by
  cases r with
  | error e => exact .failed e e
  | ok a => exact .given rfl

theorem symm (h : Alike f r r') : Alike f r' r := by
  cases h with
  | failed e e' => exact .failed e' e
  | given h => exact .given h.symm

theorem trans (h : Alike f r r') (h' : Alike f r' r'') : Alike f r r'' := by
  cases h with
  | failed e e' =>
    cases h' with
    | failed _ e'' => exact .failed e e''
  | given h =>
    cases h' with
    | given h' => exact .given (h.trans h')

theorem bind (h : Alike f r r') {k k' : α → Except ε γ}
    (hk : ∀ a a', f a = f a' → Alike g (k a) (k' a')) : Alike g (r >>= k) (r' >>= k') := by
  cases h with
  | failed e e' => exact .failed e e'
  | given h => exact hk _ _ h

/-- What is given and has a property has its like, which has a like property. -/
theorem exists_congr (h : Alike f r r') {P P' : α → Prop}
    (hP : ∀ a a', f a = f a' → (P a ↔ P' a')) :
    (∃ a, r = .ok a ∧ P a) ↔ ∃ a', r' = .ok a' ∧ P' a' := by
  cases h with
  | failed e e' => exact iff_of_false (fun ⟨_, h, _⟩ => nomatch h) fun ⟨_, h, _⟩ => nomatch h
  | @given a a' h =>
    constructor
    · rintro ⟨_, ⟨⟩, hp⟩
      exact ⟨a', rfl, (hP a a' h).mp hp⟩
    · rintro ⟨_, ⟨⟩, hp⟩
      exact ⟨a, rfl, (hP a a' h).mpr hp⟩

theorem eq_ok {r r' : Except ε α} (h : Alike id r r') {a : α} (hr : r = .ok a) : r' = .ok a := by
  cases h with
  | failed => cases hr
  | given h =>
    rw [← hr]
    exact congrArg Except.ok h.symm

theorem cases_id {r r' : Except ε α} (h : Alike id r r') :
    (∃ e e', r = .error e ∧ r' = .error e') ∨ ∃ a, r = .ok a ∧ r' = .ok a := by
  cases h with
  | failed e e' => exact .inl ⟨e, e', rfl, rfl⟩
  | given h => exact .inr ⟨_, rfl, congrArg Except.ok h.symm⟩

/-- Results are alike if neither fails alone and they agree where both are given. -/
theorem of_exists (hiff : (∃ a, r = .ok a) ↔ ∃ a', r' = .ok a')
    (heq : ∀ a a', r = .ok a → r' = .ok a' → f a = f a') : Alike f r r' := by
  cases r with
  | error e =>
    cases r' with
    | error e' => exact .failed e e'
    | ok a' => exact nomatch hiff.mpr ⟨a', rfl⟩
  | ok a =>
    cases r' with
    | error e' => exact nomatch hiff.mp ⟨a, rfl⟩
    | ok a' => exact .given (heq a a' rfl rfl)

end Alike

variable {fs : List Field} {seen es : List (String × Datum)} {ms : List (String × Value)}

-- ============================================================= one step

/-- One step of reading members: the first is unknown, or it is read and its key has not
been read before. -/
theorem readMembers_cons_eq_ok {key : String} {v : Value} :
    readMembers fs seen ((key, v) :: ms) = .ok es ↔
      (fieldNamed fs key = none ∧ readMembers fs seen ms = .ok es) ∨
      ∃ f d, fieldNamed fs key = some f ∧ seen.lookup key = none ∧ readField f v = .ok d
        ∧ readMembers fs ((key, d) :: seen) ms = .ok es := by
  cases hf : fieldNamed fs key with
  | none =>
    have hf' : fs.find? (·.name == key) = none := hf
    simp only [readMembers, hf']
    constructor
    · exact fun h => .inl ⟨trivial, h⟩
    · rintro (⟨-, h⟩ | ⟨_, _, h, -⟩)
      · exact h
      · cases h
  | some f =>
    cases hseen : seen.lookup key with
    | some d =>
      have hf' : fs.find? (·.name == key) = some f := hf
      simp only [readMembers, hf', hseen, Option.isSome_some, if_true]
      constructor
      · intro h
        cases h
      · rintro (⟨h, -⟩ | ⟨_, _, -, h, -⟩) <;> cases h
    | none =>
      rw [readMembers_cons hf (by rw [hseen]; rfl), bind_eq_ok]
      constructor
      · rintro ⟨d, hd, hms⟩
        exact .inr ⟨f, d, rfl, rfl, hd, hms⟩
      · rintro (⟨h, -⟩ | ⟨f', d, h, -, hd, hms⟩)
        · cases h
        · cases h
          exact ⟨d, hd, hms⟩

theorem lookup_eq_none_iff {key : String} :
    seen.lookup key = none ↔ key ∉ seen.map Prod.fst := by
  rw [List.lookup_eq_none_iff]
  constructor
  · intro h hmem
    obtain ⟨e, he, rfl⟩ := List.mem_map.mp hmem
    simpa using h e he
  · intro h e he
    rw [bne_iff_ne]
    rintro rfl
    exact h (List.mem_map_of_mem he)

-- ========================================================== what is read

/-- What is read for a field is what one of the members gives for it. -/
theorem mem_of_readMembers (h : readMembers fs seen ms = .ok es) {name : String} {d : Datum} :
    (name, d) ∈ es ↔ (name, d) ∈ seen ∨
      ∃ f v, fieldNamed fs name = some f ∧ (name, v) ∈ ms ∧ readField f v = .ok d := by
  induction ms generalizing seen with
  | nil =>
    cases h
    exact ⟨.inl, fun h => h.elim id fun ⟨_, _, _, h, _⟩ => nomatch h⟩
  | cons m ms ih =>
    obtain ⟨key, v⟩ := m
    rcases readMembers_cons_eq_ok.mp h with ⟨hf, hms⟩ | ⟨f, d', hf, -, hd, hms⟩
    · rw [ih hms]
      refine or_congr Iff.rfl (exists_congr fun f => exists_congr fun w => ?_)
      refine ⟨fun ⟨hname, hw, hd⟩ => ⟨hname, List.mem_cons_of_mem _ hw, hd⟩, ?_⟩
      rintro ⟨hname, hw, hd⟩
      rcases List.mem_cons.mp hw with hw | hw
      · cases hw
        rw [hf] at hname
        cases hname
      · exact ⟨hname, hw, hd⟩
    · rw [ih hms, List.mem_cons]
      constructor
      · rintro ((h | h) | ⟨f, w, hname, hw, hd⟩)
        · cases h
          exact .inr ⟨f, v, hf, List.mem_cons_self, hd⟩
        · exact .inl h
        · exact .inr ⟨f, w, hname, List.mem_cons_of_mem _ hw, hd⟩
      · rintro (h | ⟨f', w, hname, hw, hd'⟩)
        · exact .inl (.inr h)
        · rcases List.mem_cons.mp hw with hw | hw
          · cases hw
            rw [hf] at hname
            cases hname
            rw [hd] at hd'
            cases hd'
            exact .inl (.inl rfl)
          · exact .inr ⟨f', w, hname, hw, hd'⟩

/-- No field is read twice. -/
theorem nodup_of_readMembers (h : readMembers fs seen ms = .ok es)
    (hseen : (seen.map Prod.fst).Nodup) : (es.map Prod.fst).Nodup := by
  induction ms generalizing seen with
  | nil =>
    cases h
    exact hseen
  | cons m ms ih =>
    obtain ⟨key, v⟩ := m
    rcases readMembers_cons_eq_ok.mp h with ⟨-, hms⟩ | ⟨f, d, -, hnew, -, hms⟩
    · exact ih hms hseen
    · exact ih hms (List.nodup_cons.mpr ⟨lookup_eq_none_iff.mp hnew, hseen⟩)

-- ==================================================== whether it is read

/-- Of the keys that name a field, none comes twice. -/
def Once (fs : List Field) (keys : List String) : Prop :=
  ∀ key, (fieldNamed fs key).isSome → keys.count key ≤ 1

theorem Once.perm {keys keys' : List String} (h : Once fs keys) (hperm : keys.Perm keys') :
    Once fs keys' := by
  intro key hkey
  rw [← hperm.count_eq]
  exact h key hkey

/-- Members are read if each of them is that has a field, and no field comes twice. -/
theorem exists_readMembers (honce : Once fs (seen.map Prod.fst ++ ms.map Prod.fst))
    (hread : ∀ m ∈ ms, ∀ f, fieldNamed fs m.1 = some f → ∃ d, readField f m.2 = .ok d) :
    ∃ es, readMembers fs seen ms = .ok es := by
  induction ms generalizing seen with
  | nil => exact ⟨seen, rfl⟩
  | cons m ms ih =>
    obtain ⟨key, v⟩ := m
    have hrest := fun m hm => hread m (List.mem_cons_of_mem _ hm)
    cases hf : fieldNamed fs key with
    | none =>
      have honce' : Once fs (seen.map Prod.fst ++ ms.map Prod.fst) := by
        intro key' hkey'
        have h := honce key' hkey'
        rw [List.map_cons, List.count_append] at h
        rw [List.count_append]
        exact Nat.le_trans (Nat.add_le_add_left List.count_le_count_cons _) h
      obtain ⟨es, hes⟩ := ih honce' hrest
      exact ⟨es, readMembers_cons_eq_ok.mpr (.inl ⟨hf, hes⟩)⟩
    | some f =>
      obtain ⟨d, hd⟩ := hread (key, v) List.mem_cons_self f hf
      have hperm : (seen.map Prod.fst ++ key :: ms.map Prod.fst).Perm
          (key :: seen.map Prod.fst ++ ms.map Prod.fst) := List.perm_middle
      have honce' : Once fs (((key, d) :: seen).map Prod.fst ++ ms.map Prod.fst) :=
        honce.perm hperm
      have hnew : key ∉ seen.map Prod.fst := by
        intro hmem
        have h := honce' key (by rw [hf]; rfl)
        rw [List.map_cons, List.cons_append, List.count_cons_self, List.count_append] at h
        have := List.count_pos_iff.mpr hmem
        omega
      obtain ⟨es, hes⟩ := ih honce' hrest
      exact ⟨es, readMembers_cons_eq_ok.mpr
        (.inr ⟨f, d, hf, lookup_eq_none_iff.mpr hnew, hd, hes⟩)⟩

/-- Of members that are read, each is that has a field. -/
theorem read_of_readMembers (h : readMembers fs seen ms = .ok es) :
    ∀ m ∈ ms, ∀ f, fieldNamed fs m.1 = some f → ∃ d, readField f m.2 = .ok d := by
  induction ms generalizing seen with
  | nil => exact nofun
  | cons m ms ih =>
    obtain ⟨key, v⟩ := m
    rcases readMembers_cons_eq_ok.mp h with ⟨hf, hms⟩ | ⟨f, d, hf, -, hd, hms⟩
    · refine List.forall_mem_cons.mpr ⟨fun f hf' => ?_, ih hms⟩
      rw [hf] at hf'
      cases hf'
    · refine List.forall_mem_cons.mpr ⟨fun f' hf' => ?_, ih hms⟩
      rw [hf] at hf'
      cases hf'
      exact ⟨d, hd⟩

-- ======================================================== idle members

/-- A member that is read to nothing, or not looked at. -/
def Idle (fs : List Field) (m : String × Value) : Prop :=
  SaysAbsent fs m ∨ fieldNamed fs m.1 = none

theorem SaysAbsent.readField {m : String × Value} (h : SaysAbsent fs m) {f : Field}
    (hf : fieldNamed fs m.1 = some f) : readField f m.2 = .ok .absent := by
  obtain ⟨hnull, f', hf', hnullable⟩ := h
  rw [hf] at hf'
  cases hf'
  rw [hnull, Document.readField, if_pos hnullable]

/-- What an idle member is read to, if to anything, is nothing. -/
theorem Idle.readField {m : String × Value} (h : Idle fs m) {f : Field}
    (hf : fieldNamed fs m.1 = some f) : readField f m.2 = .ok .absent := by
  rcases h with h | h
  · exact h.readField hf
  · rw [hf] at h
    cases h

theorem lookup_eq_some_iff (hnodup : (es.map Prod.fst).Nodup) {name : String} {d : Datum} :
    es.lookup name = some d ↔ (name, d) ∈ es := by
  induction es with
  | nil => exact iff_of_false nofun nofun
  | cons e es ih =>
    obtain ⟨key, d'⟩ := e
    obtain ⟨hnew, hrest⟩ := List.nodup_cons.mp hnodup
    rw [List.lookup_cons, List.mem_cons, Prod.mk.injEq]
    by_cases hname : name = key
    · subst hname
      rw [beq_self_eq_true]
      refine ⟨fun h => .inl ⟨rfl, (Option.some.inj h).symm⟩, ?_⟩
      rintro (⟨-, rfl⟩ | h)
      · rfl
      · exact absurd (List.mem_map_of_mem h) hnew
    · rw [beq_eq_false_iff_ne.mpr hname]
      exact (ih hrest).trans ⟨.inr, fun h => h.resolve_left fun h => hname h.1⟩

theorem held_eq_iff (hnodup : (es.map Prod.fst).Nodup) {name : String} {d : Datum}
    (hd : d ≠ .absent) : held es name = d ↔ (name, d) ∈ es := by
  rw [← lookup_eq_some_iff hnodup, held]
  cases es.lookup name with
  | none => exact iff_of_false hd.symm nofun
  | some d' => exact (Option.some_inj).symm

/-- Fields hold the same if what is more than nothing has been read for the same ones. -/
theorem held_congr {es es' : List (String × Datum)} (hnodup : (es.map Prod.fst).Nodup)
    (hnodup' : (es'.map Prod.fst).Nodup)
    (h : ∀ name d, d ≠ .absent → ((name, d) ∈ es ↔ (name, d) ∈ es')) : held es = held es' := by
  funext name
  by_cases hd : held es name = .absent
  · by_cases hd' : held es' name = .absent
    · rw [hd, hd']
    · have hmem := (h name _ hd').mpr ((held_eq_iff hnodup' hd').mp rfl)
      exact (held_eq_iff hnodup hd').mpr hmem
  · have hmem := (h name _ hd).mp ((held_eq_iff hnodup hd).mp rfl)
    exact ((held_eq_iff hnodup' hd).mpr hmem).symm

/-- Members are read to the same in any order, and with or without idle ones. -/
theorem readMembers_idle {kept idle : List (String × Value)} (hperm : ms.Perm (kept ++ idle))
    (hidle : ∀ m ∈ idle, Idle fs m) (honce : Once fs (ms.map Prod.fst)) :
    Alike held (readMembers fs [] ms) (readMembers fs [] kept) := by
  have honce' : Once fs (kept.map Prod.fst) := by
    intro key hkey
    have h := (honce.perm (hperm.map Prod.fst)) key hkey
    rw [List.map_append, List.count_append] at h
    exact Nat.le_of_add_right_le h
  refine Alike.of_exists ⟨fun ⟨es, hes⟩ => ?_, fun ⟨es, hes⟩ => ?_⟩ fun es es' hes hes' => ?_
  · refine exists_readMembers honce' fun m hm => ?_
    exact read_of_readMembers hes m (hperm.mem_iff.mpr (List.mem_append_left _ hm))
  · refine exists_readMembers honce fun m hm f hf => ?_
    rcases List.mem_append.mp (hperm.mem_iff.mp hm) with hm | hm
    · exact read_of_readMembers hes m hm f hf
    · exact ⟨_, (hidle m hm).readField hf⟩
  · refine held_congr (nodup_of_readMembers hes .nil) (nodup_of_readMembers hes' .nil)
      fun name d hd => ?_
    rw [mem_of_readMembers hes, mem_of_readMembers hes']
    refine or_congr Iff.rfl (exists_congr fun f => exists_congr fun v => ?_)
    refine and_congr_right fun hf => and_congr_left fun hread => ?_
    rw [hperm.mem_iff, List.mem_append, or_iff_left_iff_imp]
    intro hm
    rw [(hidle _ hm).readField hf] at hread
    exact absurd (Except.ok.inj hread).symm hd

-- ============================================================= the kind

theorem kindOf_go_some {k : Kind} (h : "kind" ∉ ms.map Prod.fst) :
    kindOf.go (some k) ms = .ok k := by
  induction ms with
  | nil => rfl
  | cons m ms ih =>
    obtain ⟨key, v⟩ := m
    rw [List.map_cons, List.mem_cons, not_or] at h
    rw [kindOf_go_other (Ne.symm h.1), ih h.2]

/-- Where it is given only once, the kind is the one that some member gives. -/
theorem kindOf_eq_ok_iff (hone : (ms.map Prod.fst).count "kind" ≤ 1) {k : Kind} :
    kindOf ms = .ok k ↔ ∃ v, ("kind", v) ∈ ms ∧ kindOfTag v = .ok k := by
  unfold kindOf
  induction ms with
  | nil => exact iff_of_false nofun fun ⟨_, h, _⟩ => nomatch h
  | cons m ms ih =>
    obtain ⟨key, v⟩ := m
    rw [List.map_cons] at hone
    by_cases hkey : key = "kind"
    · subst hkey
      have hno : "kind" ∉ ms.map Prod.fst := by
        rw [List.count_cons_self] at hone
        exact List.count_eq_zero.mp (Nat.le_zero.mp (Nat.le_of_succ_le_succ hone))
      constructor
      · intro h
        obtain ⟨-, k', htag, hgo⟩ := kindOf_go_cons h
        rw [kindOf_go_some hno] at hgo
        cases hgo
        exact ⟨v, List.mem_cons_self, htag⟩
      · rintro ⟨w, hw, htag⟩
        rcases List.mem_cons.mp hw with hw | hw
        · cases hw
          rw [kindOf.go, if_pos rfl]
          simp only [htag, kindOf_go_some hno]
        · exact absurd (List.mem_map_of_mem hw) hno
    · rw [List.count_cons_of_ne hkey] at hone
      rw [kindOf_go_other hkey, ih hone]
      refine exists_congr fun w => and_congr_left fun _ => ?_
      rw [List.mem_cons, or_iff_right fun h => hkey (congrArg Prod.fst h).symm]

end TreeCheck.Document
