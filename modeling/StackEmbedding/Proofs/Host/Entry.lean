import StackEmbedding.Proofs.Host.Decoding
import StackEmbedding.Proofs.Program.Agreement

/-!
# Entries remember what their table held at the last read

An entry is read when it is made, when it is refreshed, and after each store that is made through
it. Its cache then shows what the table holds under the key (`Entry.Coherent`), whatever the store
before it did, and stays as it is until the next read, whatever else happens to the table.

**The parts.**
* `Entry.refresh_reads`: one read, and what it leaves on the stack.
* `Entry.assign_stores`: a store through an entry, and what an entry made afterwards under an equal
  key caches.
* `Configuration.Keeps`: a run in which entries are made, read, written and dropped in any order, in
  any frame, with any other code between.

A key may hold handles of its own machine only: pushing another one panics.
-/

set_option autoImplicit false

namespace StackEmbedding

variable {κ σ : Type} {host : Host κ σ} {runner : World.Runner κ σ} {w : World κ σ}
  {m n : Machine κ} {v : Value}

/-- Taking what was looked up as a variant answers a variant that shows it, unless it is a closure,
and leaves its slot when it is a table. -/
theorem World.taken_variant (hbase : w.machine.base ≤ w.machine.stack.height) (stamps : Nat)
    (v : Value) :
    ∃ answer above after, w.taken stamps v false .variant =
        (.ok (answer.map HostValue.variant), after) ∧ w.OnlyGrown above after ∧
      above.length = (if v.tag = .table then 1 else 0) ∧
      (answer = none ↔ ∃ id, v = .closure id) ∧ ∀ x, answer = some x → x.Shows after.machine v := by
  have hpins : (HostType.variant.convert w.machine.identity (w.machine.nextSlot stamps) v).elim
      false HostValue.pinsSlot = decide (v.tag = .table) := by cases v <;> rfl
  obtain ⟨after, htaken, hgrown⟩ := w.taken_reads stamps v false .variant
  refine ⟨Variant.convert w.machine.identity (w.machine.nextSlot stamps) v, _, after, htaken,
    hgrown, ?_, Variant.convert_eq_none_iff, fun x => Variant.shows_of_convert ?_⟩
  · rw [Machine.length_leftBehind, hpins, Bool.false_or]
    simp only [decide_eq_true_eq]
  · rintro id rfl
    obtain ⟨hfound, hid⟩ := Handle.locate_top (m := w.machine.spend stamps) hbase id
    cases htaken
    exact ⟨⟨_, hfound⟩, hid⟩

namespace Entry

/-- What the table of an entry holds under its key; none where the handle is stale or unbound. -/
def current (m : Machine κ) (e : Entry) : Option Value :=
  match e.table.runtime m with
  | .table id => some ((m.table id).get (e.key.runtime m))
  | _ => none

/-- The cache of an entry is what a read finds on this machine: nothing yet where the handle of the
table is stale or unbound and where the table holds a closure, and else a variant that shows the
value. -/
structure Coherent (m : Machine κ) (e : Entry) : Prop where
  stale : e.table.locate m = none → e.cached = .unset
  closure : ∀ id, e.current m = some (.closure id) → e.cached = .unset
  shown : ∀ v, e.current m = some v → (∀ id, v ≠ .closure id) → e.cached.Shows m v

variable {e : Entry}

theorem current_eq_some_iff :
    e.current m = some v ↔
      ∃ id, e.table.runtime m = .table id ∧ (m.table id).get (e.key.runtime m) = v := by
  unfold current
  cases hid : e.table.runtime m <;> simp

theorem current_eq_none_iff : e.current m = none ↔ e.table.locate m = none := by
  cases hp : e.table.locate m with
  | none => simp [current, Handle.runtime_of_stale hp]
  | some p =>
    obtain ⟨id, hid⟩ := Handle.runtime_eq_table hp
    simp [current, hid]

/-- A table that holds nothing under a nil key shows its entries where slots come to lie above. -/
theorem current_grown {above : List Slot} (hgrown : m.GrownBy above n)
    (htables : n.tables = m.tables) (habove : above = [] ∨ v ≠ .nil)
    (hv : e.current m = some v) : e.current n = some v := by
  obtain ⟨id, hid, hget⟩ := current_eq_some_iff.mp hv
  have hfound : e.table.locate m ≠ none := by
    intro hp
    rw [Handle.runtime_of_stale hp] at hid
    cases hid
  obtain ⟨p, hp⟩ := Option.ne_none_iff_exists'.mp hfound
  have hkey : (HostValue.variant e.key).runtime n = (HostValue.variant e.key).runtime m := by
    obtain rfl | hvalue := habove
    · exact HostValue.runtime_same hgrown _
    · refine ((HostValue.live_of_runtime_ne_nil fun hnil => hvalue ?_).grown hgrown).2
      rw [← hget]
      show (m.table id).get ((HostValue.variant e.key).runtime m) = .nil
      rw [hnil]
      rfl
  refine current_eq_some_iff.mpr ⟨id, (Handle.runtime_grown hgrown hp).trans hid, ?_⟩
  rw [← hget]
  show (n.table id).get ((HostValue.variant e.key).runtime n) = _
  rw [hkey, Machine.table, htables]
  rfl

/-- Under what cannot be a key, a stale handle among it, a table holds nil. -/
theorem Coherent.nil_of_unkeyed (h : e.Coherent m) (hfound : (e.table.locate m).isSome = true)
    (hkey : ¬ HostValue.Live m (.variant e.key) ∨ e.key.runtime m = .nil ∨
      ∃ x, e.key.runtime m = .number x ∧ x.isNaN = true) : e.cached = .nil := by
  have hnone : Key.ofValue? (e.key.runtime m) = none := by
    rw [Key.ofValue?_eq_none_iff]
    obtain hstale | hnil := hkey
    · by_contra hvalue
      exact hstale (HostValue.live_of_runtime_ne_nil fun hnil => hvalue (.inl hnil))
    · exact hnil
  obtain ⟨p, hp⟩ := Option.isSome_iff_exists.mp hfound
  obtain ⟨id, hid⟩ := Handle.runtime_eq_table hp
  have hcurrent : e.current m = some .nil := by
    refine current_eq_some_iff.mpr ⟨id, hid, ?_⟩
    rw [Table.get, hnone, Option.elim_none]
  have hshows := h.shown .nil hcurrent fun _ hclosure => by cases hclosure
  generalize e.cached = cached at hshows ⊢
  cases hshows
  rfl

/-! ## Reading -/

/-- The keys that an entry is read with are of one machine. -/
def OwnedBy (identity : Nat) (e : Entry) : Prop :=
  ∀ h ∈ (HostValue.variant e.key).handles, h.owner = identity

/-- An entry was read on the way to the machine `n`: its cache is what the table holds there, and
the frame has one slot more if that is a table. -/
structure ReadAt (m n : Machine κ) (e : Entry) : Prop where
  coherent : e.Coherent n
  grown : ∃ above, m.GrownBy above n ∧
    above.length = if (e.current n).any (·.tag = .table) then 1 else 0

/-- Reading an entry again answers whether there was something to show, caches what the table holds
now, and changes no table and no global. -/
theorem refresh_reads (host : Host κ σ) (runner : World.Runner κ σ) (w : World κ σ) {e : Entry}
    (howned : e.OwnedBy w.machine.identity) :
    ∃ cached after, e.refresh.runWith host runner w =
        (.ok (decide (cached ≠ .unset), { e with cached }), after) ∧
      ReadAt w.machine after.machine { e with cached } ∧
      after.machine.tables = w.machine.tables ∧ after.machine.globals = w.machine.globals ∧
      Entry.current after.machine { e with cached } = e.current w.machine := by
  unfold refresh
  rw [Program.runWith_bind]
  cases hp : e.table.locate w.machine with
  | none =>
    rw [Handle.runWith_fetch_stale hp]
    have hnone := current_eq_none_iff.mpr hp
    refine ⟨.unset, w, rfl, ⟨⟨fun _ => rfl, fun _ _ => rfl, ?_⟩, [], .refl _, ?_⟩, rfl, rfl, rfl⟩
    · intro v hv
      cases hnone.symm.trans hv
    · show 0 = if (e.current w.machine).any _ then 1 else 0
      rw [hnone]
      rfl
  | some p =>
    obtain ⟨id, hid⟩ := Handle.runtime_eq_table hp
    obtain ⟨stamps, hfetch⟩ := Handle.runWith_fetch host runner hp hid howned false .variant
    have hv : e.current w.machine =
        some ((w.machine.table id).get ((HostValue.variant e.key).runtime w.machine)) :=
      current_eq_some_iff.mpr ⟨id, hid, rfl⟩
    generalize (w.machine.table id).get ((HostValue.variant e.key).runtime w.machine) = v at *
    obtain ⟨answer, above, after, htaken, hgrown, hlength, hclosure, hshows⟩ :=
      World.taken_variant (Handle.base_le_of_locate hp) stamps v
    have habove : above = [] ∨ v ≠ .nil := by
      by_cases htable : v.tag = .table
      · exact .inr fun hnil => by cases hnil; cases htable
      · rw [if_neg htable] at hlength
        exact .inl (List.eq_nil_of_length_eq_zero hlength)
    have hcurrent : ∀ cached, Entry.current after.machine { e with cached } = some v :=
      fun _ => current_grown hgrown.grown hgrown.tables habove hv
    have hfound : e.table.locate after.machine ≠ none := by
      rw [Handle.locate_grown hgrown.grown hp]
      exact nofun
    rw [hfetch, htaken, hv]
    cases answer with
    | none =>
      obtain ⟨c, rfl⟩ := hclosure.mp rfl
      refine ⟨.unset, after, rfl, ⟨⟨fun _ => rfl, fun _ _ => rfl, ?_⟩, above, hgrown.grown, ?_⟩,
        hgrown.tables, hgrown.globals, hcurrent _⟩
      · intro v hv hopen
        rw [hcurrent] at hv
        exact absurd (Option.some.inj hv).symm (hopen c)
      · rw [hlength, hcurrent]
        rfl
    | some x =>
      have hx := hshows x rfl
      have hset : x ≠ .unset := by
        rintro rfl
        cases hx
      refine ⟨x, after, by rw [decide_eq_true hset]; rfl, ⟨⟨?_, ?_, ?_⟩, above, hgrown.grown, ?_⟩,
        hgrown.tables, hgrown.globals, hcurrent _⟩
      · exact fun hnone => absurd hnone hfound
      · intro c hc
        rw [hcurrent] at hc
        cases hclosure.mpr ⟨c, Option.some.inj hc⟩
      · intro u hu _
        rw [hcurrent] at hu
        rw [← Option.some.inj hu]
        exact hx
      · rw [hlength, hcurrent]
        simp

/-- Making an entry reads it. -/
theorem create_reads (host : Host κ σ) (w : World κ σ) (table : Handle) (key : Variant)
    (howned : ∀ h ∈ (HostValue.variant key).handles, h.owner = w.machine.identity) :
    ∃ cached after, w.run host (create table key) = (.ok ⟨table, key, cached⟩, after) ∧
      ReadAt w.machine after.machine ⟨table, key, cached⟩ ∧
      after.machine.tables = w.machine.tables ∧ after.machine.globals = w.machine.globals ∧
      Entry.current after.machine ⟨table, key, cached⟩ =
        Entry.current w.machine ⟨table, key, .unset⟩ := by
  obtain ⟨cached, after, hrun, hread⟩ :=
    refresh_reads host (World.runner host w.machine.callsLeft) w (e := ⟨table, key, .unset⟩) howned
  exact ⟨cached, after, World.run_return hrun Prod.snd, hread⟩

/-! ## Storing -/

/-- No variant stands for a closure. -/
theorem runtime_ne_closure (m : Machine κ) (x : Variant) (c : ClosureId) :
    x.runtime m ≠ .closure c := by
  cases x with
  | table h =>
    show h.runtime m ≠ .closure c
    cases hp : h.locate m with
    | none => rw [Handle.runtime_of_stale hp]; exact nofun
    | some p =>
      obtain ⟨id, hid⟩ := Handle.runtime_eq_table hp
      rw [hid]
      exact nofun
  | unset | int _ | bool _ | number _ | str _ | function _ | nil => exact nofun

/-- What a table holds under a key it holds under every equal key. -/
theorem current_of_rawEq {key : Variant} (hnil : e.key.runtime m ≠ .nil)
    (heq : (e.key.runtime m).rawEq (key.runtime m) = true) (cached : Variant) :
    Entry.current m ⟨e.table, key, cached⟩ = e.current m := by
  obtain ⟨k, hk, hsame⟩ := (Key.rawEq_iff hnil).mp heq
  have hget : ∀ t : Table, t.get (key.runtime m) = t.get (e.key.runtime m) := by
    intro t
    rw [Table.get, Table.get, hk, hsame]
  unfold current
  simp only [hget]

/-- Storing through an entry stores unless something is stale or the key is nil or NaN, and reads
the entry again in either case. What was stored is then what the table holds. -/
theorem assign_stores (host : Host κ σ) {w : World κ σ}
    (hbase : w.machine.base ≤ w.machine.stack.height) {e : Entry}
    (howned : e.OwnedBy w.machine.identity) (value : Variant) :
    ∃ stored cached after, w.run host (e.assign value) = (.ok (stored, { e with cached }), after) ∧
      ReadAt w.machine after.machine { e with cached } ∧
      (stored = true ↔ (e.table.locate w.machine).isSome = true ∧
        HostValue.Live w.machine (.variant e.key) ∧ HostValue.Live w.machine (.variant value) ∧
        e.key.runtime w.machine ≠ .nil ∧
        ∀ x, e.key.runtime w.machine = .number x → x.isNaN = false) ∧
      (stored = false → after.machine.tables = w.machine.tables) ∧
      (stored = true → e.key.runtime after.machine = e.key.runtime w.machine ∧
        Entry.current after.machine { e with cached } = some (value.runtime w.machine)) := by
  obtain ⟨stored, middle, hset, hiff, hrefused, hdone⟩ :=
    e.table.set_cases host (World.runner host w.machine.callsLeft) w (.variant e.key)
      (.variant value)
  have hframe : w.SameFrame middle := by
    cases stored with
    | false => exact (hrefused rfl).toSameFrame
    | true =>
      obtain ⟨id, k, -, -, hupdated⟩ := hdone rfl
      exact hupdated.toSameFrame
  have hsame := hframe.grown hbase hset
  have howned' : e.OwnedBy middle.machine.identity := by
    rw [hsame.identity]
    exact howned
  obtain ⟨cached, after, hread, hreadAt, htables, -, hcurrent⟩ :=
    refresh_reads host (World.runner host middle.machine.callsLeft) middle howned'
  obtain ⟨above, hgrown, hlength⟩ := hreadAt.grown
  have hbase' : middle.machine.base ≤ middle.machine.stack.height := by
    rw [hsame.base, hsame.height]
    exact hbase
  refine ⟨stored, cached, after, ?_, ⟨hreadAt.coherent, above, hsame.trans hgrown, hlength⟩, hiff,
    fun hfalse => htables.trans (hrefused hfalse).tables, fun htrue => ?_⟩
  · rw [assign, World.run_bind host hbase hset]
    exact World.run_return hread fun answer => (stored, answer.2)
  · obtain ⟨id, k, hid, hk, hupdated⟩ := hdone htrue
    obtain ⟨-, hkey, -⟩ := hiff.mp htrue
    refine ⟨(hkey.grown (hsame.trans hgrown)).2, ?_⟩
    rw [hcurrent, current_eq_some_iff]
    refine ⟨id, (Handle.runtime_same hsame _).trans hid, hupdated.entry.get_same ?_⟩
    rw [← hk]
    exact congrArg Key.ofValue? (HostValue.runtime_same hsame (.variant e.key))

end Entry

/-! ## Entries that are kept while code runs -/

namespace Configuration

variable {c d : Configuration κ σ}

/-- An entry that host code keeps, and the moment right after it was last read. -/
structure KeptEntry (κ σ : Type) where
  entry : Entry
  lastRead : Configuration κ σ

/-- From `c` on, entries were made, read again, stored through and given up, with other code
between. -/
inductive Keeps (host : Host κ σ) (c : Configuration κ σ) :
    List (KeptEntry κ σ) → Configuration κ σ → Prop
  | start : Keeps host c [] c
  | create {kept : List (KeptEntry κ σ)} {d : Configuration κ σ} {table : Handle} {key : Variant}
      {e : Entry} {after : World κ σ} {next : Entry → Program κ σ Ending} :
      Keeps host c kept d →
        (∀ h ∈ (HostValue.variant key).handles, h.owner = d.machine.identity) →
        d.code = (Entry.create table key >>= next : Program κ σ Ending) →
        d.world.run host (Entry.create table key) = (.ok e, after) →
          Keeps host c (⟨e, after, next e, d.calls⟩ :: kept) ⟨after, next e, d.calls⟩
  | refresh {kept : List (KeptEntry κ σ)} {d : Configuration κ σ} {i : Nat} {k : KeptEntry κ σ}
      {answer : Bool × Entry} {after : World κ σ} {next : Bool × Entry → Program κ σ Ending} :
      Keeps host c kept d → kept[i]? = some k →
        d.code = (k.entry.refresh >>= next : Program κ σ Ending) →
        d.world.run host k.entry.refresh = (.ok answer, after) →
          Keeps host c (kept.set i ⟨answer.2, after, next answer, d.calls⟩)
            ⟨after, next answer, d.calls⟩
  | assign {kept : List (KeptEntry κ σ)} {d : Configuration κ σ} {i : Nat} {k : KeptEntry κ σ}
      {value : Variant} {answer : Bool × Entry} {after : World κ σ}
      {next : Bool × Entry → Program κ σ Ending} :
      Keeps host c kept d → kept[i]? = some k →
        d.code = (k.entry.assign value >>= next : Program κ σ Ending) →
        d.world.run host (k.entry.assign value) = (.ok answer, after) →
          Keeps host c (kept.set i ⟨answer.2, after, next answer, d.calls⟩)
            ⟨after, next answer, d.calls⟩
  | giveUp {kept : List (KeptEntry κ σ)} {d : Configuration κ σ} (i : Nat) :
      Keeps host c kept d → Keeps host c (kept.eraseIdx i) d
  | other {kept : List (KeptEntry κ σ)} {d e : Configuration κ σ} :
      Keeps host c kept d → Leads host (fun _ => True) d e → Keeps host c kept e

/-- What holds of an entry that is kept at the moment `d` of a run from `c`. -/
structure Cached (host : Host κ σ) (c d : Configuration κ σ) (k : KeptEntry κ σ) : Prop where
  after : Leads host (fun _ => True) c k.lastRead
  before : Leads host (fun _ => True) k.lastRead d
  owned : k.entry.OwnedBy c.machine.identity
  coherent : k.entry.Coherent k.lastRead.machine

theorem Cached.later {k : KeptEntry κ σ} {e : Configuration κ σ} (h : Cached host c d k)
    (hlater : Leads host (fun _ => True) d e) : Cached host c e k :=
  { h with before := h.before.trans hlater }

/-- An entry that was read by what ran last is kept with that moment. -/
theorem cached_of_read (hc : c.WellFormed) (hd : Leads host (fun _ => True) c d) {α : Type}
    {p : Program κ σ α} {a : α} {after : World κ σ} {next : α → Program κ σ Ending}
    (hcode : d.code = (p >>= next : Program κ σ Ending))
    (hrun : d.world.run host p = (.ok a, after)) {e : Entry} (howned : e.OwnedBy c.machine.identity)
    (hread : e.ReadAt d.machine after.machine) :
    Cached host c ⟨after, next a, d.calls⟩ ⟨e, after, next a, d.calls⟩ :=
  ⟨hd.trans (leads_bind (hc.leads hd) hcode hrun), .refl, howned, hread.coherent⟩

theorem Keeps.leads (hc : c.WellFormed) {kept : List (KeptEntry κ σ)} (h : Keeps host c kept d) :
    Leads host (fun _ => True) c d := by
  induction h with
  | start => exact .refl
  | create _ _ hcode hrun ih => exact ih.trans (leads_bind (hc.leads ih) hcode hrun)
  | refresh _ _ hcode hrun ih => exact ih.trans (leads_bind (hc.leads ih) hcode hrun)
  | assign _ _ hcode hrun ih => exact ih.trans (leads_bind (hc.leads ih) hcode hrun)
  | giveUp _ _ ih => exact ih
  | other _ hlater ih => exact ih.trans hlater

/-- Every entry that is kept shows what its table held when it was last read. -/
theorem Keeps.cached (hc : c.WellFormed) {kept : List (KeptEntry κ σ)} (h : Keeps host c kept d) :
    ∀ k ∈ kept, Cached host c d k := by
  induction h with
  | start => exact fun k hk => absurd hk List.not_mem_nil
  | @create kept d table key e after next before howned hcode hrun ih =>
    have hd := before.leads hc
    intro k hk
    rcases List.mem_cons.mp hk with rfl | hk
    · obtain ⟨cached, after', hcreate, hread, -⟩ :=
        Entry.create_reads host d.world table key howned
      obtain ⟨hanswer, rfl⟩ := Prod.mk.inj (hrun.symm.trans hcreate)
      obtain rfl := Except.ok.inj hanswer
      rw [hd.identity_eq hc] at howned
      exact cached_of_read hc hd hcode hrun howned hread
    · exact (ih k hk).later (leads_bind (hc.leads hd) hcode hrun)
  | @refresh kept d i old answer after next before hget hcode hrun ih =>
    have hd := before.leads hc
    have howned := (ih old (List.mem_of_getElem? hget)).owned
    intro k hk
    rcases List.mem_or_eq_of_mem_set hk with hk | rfl
    · exact (ih k hk).later (leads_bind (hc.leads hd) hcode hrun)
    · obtain ⟨cached, after', hrefresh, hread, -⟩ := Entry.refresh_reads host
        (World.runner host d.machine.callsLeft) d.world (e := old.entry)
        (by rw [hd.identity_eq hc]; exact howned)
      obtain ⟨hanswer, rfl⟩ := Prod.mk.inj (hrun.symm.trans hrefresh)
      obtain rfl := Except.ok.inj hanswer
      exact cached_of_read hc hd hcode hrun howned hread
  | @assign kept d i old value answer after next before hget hcode hrun ih =>
    have hd := before.leads hc
    have howned := (ih old (List.mem_of_getElem? hget)).owned
    intro k hk
    rcases List.mem_or_eq_of_mem_set hk with hk | rfl
    · exact (ih k hk).later (leads_bind (hc.leads hd) hcode hrun)
    · obtain ⟨stored, cached, after', hassign, hread, -⟩ := Entry.assign_stores host
        (hc.leads hd).base_le_height (e := old.entry)
        (by rw [hd.identity_eq hc]; exact howned) value
      obtain ⟨hanswer, rfl⟩ := Prod.mk.inj (hrun.symm.trans hassign)
      obtain rfl := Except.ok.inj hanswer
      exact cached_of_read hc hd hcode hrun howned hread
  | giveUp i _ ih => exact fun k hk => ih k (List.mem_of_mem_eraseIdx hk)
  | other _ hlater ih => exact fun k hk => (ih k hk).later hlater

/-- Entries cache what their table held at the last read. At every moment of a run an entry can be
made, read again and stored through; each of these reads it, so its cache is then what the table
holds, and the frame has one slot more exactly if that is a table. A store is refused where
something is stale and where the key is nil or NaN, and changes no table then; what was stored is
what the table holds and what every entry made afterwards under an equal key caches. Under what
cannot be a key the cache is nil. Between its reads the cache of an entry stays as it is, whatever
else the run does. -/
theorem entries_coherent (hc : Reachable host c) :
    (∀ (table : Handle) (key : Variant),
      (∀ h ∈ (HostValue.variant key).handles, h.owner = c.machine.identity) →
      ∃ cached after, c.world.run host (Entry.create table key) =
          (.ok ⟨table, key, cached⟩, after) ∧
        Entry.ReadAt c.machine after.machine ⟨table, key, cached⟩) ∧
    (∀ e : Entry, e.OwnedBy c.machine.identity →
      ∃ cached after, c.world.run host e.refresh =
          (.ok (decide (cached ≠ .unset), { e with cached }), after) ∧
        Entry.ReadAt c.machine after.machine { e with cached }) ∧
    (∀ (e : Entry) (value : Variant), e.OwnedBy c.machine.identity →
      ∃ stored cached after, c.world.run host (e.assign value) =
          (.ok (stored, { e with cached }), after) ∧
        Entry.ReadAt c.machine after.machine { e with cached } ∧
        (stored = true ↔ (e.table.locate c.machine).isSome = true ∧
          HostValue.Live c.machine (.variant e.key) ∧ HostValue.Live c.machine (.variant value) ∧
          e.key.runtime c.machine ≠ .nil ∧
          ∀ x, e.key.runtime c.machine = .number x → x.isNaN = false) ∧
        (stored = false → after.machine.tables = c.machine.tables) ∧
        (stored = true →
          Entry.current after.machine { e with cached } = some (value.runtime c.machine) ∧
          cached.Shows after.machine (value.runtime c.machine) ∧
          ∀ key : Variant,
            (e.key.runtime after.machine).rawEq (key.runtime after.machine) = true →
            ∃ cached' final, after.run host (Entry.create e.table key) =
                (.ok ⟨e.table, key, cached'⟩, final) ∧
              cached'.Shows final.machine (value.runtime c.machine))) ∧
    (∀ e : Entry, e.Coherent c.machine → (e.table.locate c.machine).isSome = true →
      (¬ HostValue.Live c.machine (.variant e.key) ∨ e.key.runtime c.machine = .nil ∨
        ∃ x, e.key.runtime c.machine = .number x ∧ x.isNaN = true) → e.cached = .nil) ∧
    ∀ (kept : List (KeptEntry κ σ)) (d : Configuration κ σ), Keeps host c kept d →
      ∀ k ∈ kept, Cached host c d k := by
  have hwell := hc.wellFormed
  refine ⟨fun table key howned => ?_, fun e howned => ?_, fun e value howned => ?_,
    fun e hcoherent => hcoherent.nil_of_unkeyed, fun kept d hkept => hkept.cached hwell⟩
  · obtain ⟨cached, after, hrun, hread, -⟩ := Entry.create_reads host c.world table key howned
    exact ⟨cached, after, hrun, hread⟩
  · obtain ⟨cached, after, hrun, hread, -⟩ := Entry.refresh_reads host
      (World.runner host c.machine.callsLeft) c.world howned
    exact ⟨cached, after, hrun, hread⟩
  · obtain ⟨stored, cached, after, hrun, hread, hiff, hrefused, hdone⟩ :=
      Entry.assign_stores host hwell.base_le_height howned value
    refine ⟨stored, cached, after, hrun, hread, hiff, hrefused, fun hstored => ?_⟩
    obtain ⟨hkey, hcurrent⟩ := hdone hstored
    have hopen := Entry.runtime_ne_closure c.machine value
    refine ⟨hcurrent, hread.coherent.shown _ hcurrent hopen, fun key heq => ?_⟩
    obtain ⟨-, -, -, hnil, -⟩ := hiff.mp hstored
    rw [← hkey] at hnil
    have hother : key.runtime after.machine ≠ .nil := by
      intro hnone
      rw [hnone, Value.rawEq_nil_iff] at heq
      exact hnil heq
    obtain ⟨cached', final, hcreate, hread', -, -, hsame⟩ :=
      Entry.create_reads host after e.table key
        (HostValue.live_of_runtime_ne_nil (v := .variant key) hother).owner
    rw [← Entry.current_of_rawEq (e := { e with cached }) hnil heq .unset] at hcurrent
    exact ⟨cached', final, hcreate, hread'.coherent.shown _ (hsame.trans hcurrent) hopen⟩

/-- The float two. -/
def floatTwo : Binary64 := ⟨false, 0x4000000000000000, by decide⟩

/-- Makes two entries under equal keys and stores through the second. -/
def assigning : Program Unit Unit Ending := do
  let _ ← Entry.create heldTable (.int 2)
  let second ← Entry.create heldTable (.number floatTwo)
  let _ ← second.assign (.bool true)
  return .ok 0

/-- The moment before two entries of the table in the frame are made. -/
def beforeEntries : Configuration Unit Unit :=
  ⟨⟨(Machine.new 0 {}).createTable, ()⟩, assigning, []⟩

theorem reachable_beforeEntries : Reachable passive beforeEntries :=
  ⟨0, {}, (), .step (.primitive .createTable) fun _ => assigning, leads_of_iterate (n := 1) rfl⟩

/-- What is stored through an entry is cached by an entry made afterwards under an equal key, and an
entry that was made before shows what it read then. -/
theorem equal_keys_share_entry :
    Reachable passive beforeEntries ∧
    (∃ cached after, beforeEntries.world.run passive
        (Entry.assign ⟨heldTable, .number floatTwo, .unset⟩ (.bool true)) =
          (.ok (true, ⟨heldTable, .number floatTwo, cached⟩), after) ∧
      cached.Shows after.machine (.bool true) ∧
      ∃ cached' final, after.run passive (Entry.create heldTable (.int 2)) =
          (.ok ⟨heldTable, .int 2, cached'⟩, final) ∧ cached'.Shows final.machine (.bool true)) ∧
    ∃ first second d, Keeps passive beforeEntries [second, first] d ∧
      first.entry.cached = .nil ∧ first.entry.current d.machine = some (.bool true) ∧
      Cached passive beforeEntries d first := by
  obtain ⟨-, -, hassign, -, hkeeps⟩ := entries_coherent reachable_beforeEntries
  refine ⟨reachable_beforeEntries, ?_, ?_⟩
  · obtain ⟨stored, cached, after, hrun, -, hiff, -, hdone⟩ :=
      hassign ⟨heldTable, .number floatTwo, .unset⟩ (.bool true) nofun
    obtain rfl : stored = true := by
      refine hiff.mpr ⟨rfl, nofun, nofun, nofun, fun x hx => ?_⟩
      cases hx
      rfl
    obtain ⟨-, hshows, hequal⟩ := hdone rfl
    exact ⟨cached, after, hrun, hshows, hequal (.int 2) rfl⟩
  · have hint : ∀ h ∈ (HostValue.variant (.int 2)).handles, h.owner = 0 := nofun
    have hfloat : ∀ h ∈ (HostValue.variant (.number floatTwo)).handles, h.owner = 0 := nofun
    have hfirst : Keeps passive beforeEntries [_] _ := .create .start hint rfl rfl
    have hsecond := Keeps.create hfirst hfloat rfl rfl
    have hassigned :=
      @Keeps.assign _ _ passive beforeEntries _ _ 0 _ (.bool true) _ _ _ hsecond rfl rfl rfl
    exact ⟨_, _, _, hassigned, rfl, rfl, hkeeps _ _ hassigned _ (.tail _ (.head _))⟩

end Configuration

end StackEmbedding
