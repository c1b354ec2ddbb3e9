import Mathlib.Data.List.Forall2
import McuRegWr.Proof.Ring.Serve

/-!
# Peeping before skipping

A read that fails after the MCU has made it loses bytes. A consumer that looks at the bytes first and
skips them afterwards loses none: whatever leaves the ring was returned before, and when nothing
fails the two calls do what one read does.
-/

namespace McuRegWr

open Base Prog RegWrCb

/-- The ring with everything that was put in and taken out of it, and the accesses that failed. -/
structure Feed (cap : Nat) where
  ring : Fifo UInt8 cap
  appended : List UInt8
  removed : List UInt8
  failures : Nat

namespace Feed

variable {cap : Nat}

/-- An access leaves the queue `q`, and then the MCU appends `xs`. -/
def after (s : Feed cap) (q : Fifo UInt8 cap) (xs : List UInt8) (h : xs.length ≤ q.free) :
    Feed cap where
  ring := q.push xs h
  appended := s.appended ++ xs
  removed := s.removed ++ s.ring.front (s.ring.level - q.level)
  failures := s.failures

def fail (s : Feed cap) : Feed cap := { s with failures := s.failures + 1 }

end Feed

/-- The access was answered with an error. -/
inductive Failed : (o : RegOp) → RegOp.Ans o → Prop
  | readReg {reg_addr reg_cnt : UInt16} {timeout : UInt32} (code : Fail) :
      Failed (.readReg reg_addr reg_cnt timeout) (.error code)
  | writeReg {reg_addr : UInt16} {reg_data : List UInt8} {timeout : UInt32} (code : Fail) :
      Failed (.writeReg reg_addr reg_data timeout) (.error code)

variable {cap : Nat}

/-- The ring at `cb_addr` serves an access, and the MCU appends what it likes. -/
inductive serving (cb_addr : UInt16) : World RegI (Feed cap)
  | served {s : Feed cap} {o : RegOp} {r : RegOp.Ans o} {q : Fifo UInt8 cap} (xs : List UInt8)
      (h : xs.length ≤ q.free) (hserve : Ring.Serves cb_addr s.ring o r q) (hok : ¬ Failed o r) :
      serving cb_addr s o r (s.after q xs h)

/-- An access is served, or it fails, before it took effect or after. -/
inductive feeding (cb_addr : UInt16) : World RegI (Feed cap)
  | served {s s' : Feed cap} {o : RegOp} {r : RegOp.Ans o} (h : serving cb_addr s o r s') :
      feeding cb_addr s o r s'
  | failed {s : Feed cap} {o : RegOp} {r : RegOp.Ans o} {q : Fifo UInt8 cap} (xs : List UInt8)
      (h : xs.length ≤ q.free) (hfail : Failed o r)
      (heffect : q = s.ring ∨ ∃ r', Ring.Serves cb_addr s.ring o r' q) :
      feeding cb_addr s o r (s.after q xs h).fail

/-- A round of the consumer: it returns what `RegWrCb_Peep` returned. -/
def consume (cb_addr : UInt16) (buf : List UInt8) (n timeout : UInt32) :
    Prog RegI (Int × List UInt8) := do
  let (k, buf) ← RegWrCb.peep regWrCbHandle cb_addr buf n timeout
  if k > 0 then
    let _ ← RegWrCb.readAir regWrCbHandle cb_addr (UInt32.ofNat k.toNat) timeout
    return (k, buf)
  return (k, buf)

/-- What a round does after its peep. -/
def skipShown (cb_addr : UInt16) (timeout : UInt32) (a : Int × List UInt8) :
    Prog RegI (Int × List UInt8) :=
  if 0 < a.1 then do
    let _ ← RegWrCb.readAir regWrCbHandle cb_addr (UInt32.ofNat a.1.toNat) timeout
    return a
  else return a

theorem consume_eq (cb_addr : UInt16) (buf : List UInt8) (n timeout : UInt32) :
    consume cb_addr buf n timeout =
      (RegWrCb.peep regWrCbHandle cb_addr buf n timeout >>= skipShown cb_addr timeout) := rfl

/-- The bytes a call returned. -/
def shown (a : Int × List UInt8) : List UInt8 := a.2.take a.1.toNat

/-- The rounds of a consumer from `s` on, with what each of them returned. -/
inductive Consumed (cb_addr : UInt16) (s : Feed cap) : List (List UInt8) → Feed cap → Prop
  | start : Consumed cb_addr s [] s
  | round {got : List (List UInt8)} {s' s'' : Feed cap} (h : Consumed cb_addr s got s')
      {buf : List UInt8} {n timeout : UInt32} (hpos : 0 < n.toNat) (hsmall : n.toNat ≤ 1022)
      {a : Int × List UInt8}
      (run : Exec (feeding cb_addr) (consume cb_addr buf n timeout) s' a s'') :
      Consumed cb_addr s (got ++ [shown a]) s''

namespace Feed

variable {cb_addr : UInt16} {s s' t : Feed cap} {timeout : UInt32}

/-- Nothing was removed, and the ring holds what was appended behind what it held. -/
def Grown (s t : Feed cap) : Prop :=
  t.removed = s.removed ∧
    ∃ xs, t.ring.items = s.ring.items ++ xs ∧ t.appended = s.appended ++ xs

theorem Grown.trans (h : Grown s s') (h' : Grown s' t) : Grown s t := by
  obtain ⟨hremoved, xs, hitems, happended⟩ := h
  obtain ⟨hremoved', ys, hitems', happended'⟩ := h'
  refine ⟨hremoved'.trans hremoved, xs ++ ys, ?_, ?_⟩
  · rw [hitems', hitems, List.append_assoc]
  · rw [happended', happended, List.append_assoc]

theorem grown_after (s : Feed cap) (xs : List UInt8) (h : xs.length ≤ s.ring.free) :
    Grown s (s.after s.ring xs h) := by
  refine ⟨?_, xs, rfl, rfl⟩
  rw [after, Nat.sub_self, Fifo.front, List.take_zero, List.append_nil]

theorem removed_after_pop {n : Nat} (hn : n ≤ s.ring.level) (xs : List UInt8)
    (h : xs.length ≤ (s.ring.pop n).free) :
    (s.after (s.ring.pop n) xs h).removed = s.removed ++ s.ring.front n := by
  rw [after, Fifo.level_pop, Nat.sub_sub_self hn]

/-- A ring leaves its queue alone when it serves `o`. -/
def Still (cap : Nat) (cb_addr : UInt16) (o : RegOp) : Prop :=
  ∀ (q q' : Fifo UInt8 cap) (r : RegOp.Ans o), Ring.Serves cb_addr q o r q' → q' = q

theorem still_size : Still cap cb_addr (.readReg (cb_addr + CBREG_CMD_GET_SIZE) 4 timeout) :=
  fun _ _ _ h => (Ring.serves_size h).1

theorem still_peep {cnt : UInt16} :
    Still cap cb_addr (.readReg (cb_addr + CBREG_CMD_PEEP) cnt timeout) :=
  fun _ _ _ h => (Ring.serves_peep h).1

theorem feeding_still {o : RegOp} {r : RegOp.Ans o} (ho : Still cap cb_addr o)
    (h : feeding cb_addr s o r t) : Grown s t := by
  cases h with
  | served h =>
      cases h with
      | served xs hfits hserve hok =>
          obtain rfl := ho _ _ _ hserve
          exact grown_after s xs hfits
  | failed xs hfits hfail heffect =>
      rename_i q
      have hsame : q = s.ring := heffect.elim id fun ⟨r', hserve⟩ => ho _ _ _ hserve
      obtain rfl := hsame
      exact grown_after s xs hfits

theorem feeding_readAir {data : List UInt8}
    {r : RegOp.Ans (.writeReg (cb_addr + CBREG_CMD_READAIR) data timeout)}
    (h : feeding cb_addr s (.writeReg (cb_addr + CBREG_CMD_READAIR) data timeout) r t) :
    t.removed = s.removed ∨
      ofLeBytes data ≤ s.ring.level ∧ t.removed = s.removed ++ s.ring.front (ofLeBytes data) := by
  have hcases {q : Fifo UInt8 cap} {r' : _} (xs : List UInt8) (hfits : xs.length ≤ q.free)
      (hserve : Ring.Serves cb_addr s.ring (.writeReg (cb_addr + CBREG_CMD_READAIR) data timeout)
        r' q) : (s.after q xs hfits).removed = s.removed ∨
      ofLeBytes data ≤ s.ring.level ∧
        (s.after q xs hfits).removed = s.removed ++ s.ring.front (ofLeBytes data) := by
    rcases Ring.serves_readAir hserve with ⟨-, rfl⟩ | ⟨-, hle, rfl⟩
    · exact .inl (grown_after s xs hfits).1
    · exact .inr ⟨hle, removed_after_pop hle xs hfits⟩
  cases h with
  | served h =>
      cases h with
      | served xs hfits hserve hok => exact hcases xs hfits hserve
  | failed xs hfits hfail heffect =>
      rcases heffect with rfl | ⟨r', hserve⟩
      · exact .inl (grown_after s xs hfits).1
      · exact hcases xs hfits hserve

theorem feeding_peep {cnt : UInt16}
    {r : RegOp.Ans (.readReg (cb_addr + CBREG_CMD_PEEP) cnt timeout)}
    (h : feeding cb_addr s (.readReg (cb_addr + CBREG_CMD_PEEP) cnt timeout) r t) :
    (∃ code, r = .error code) ∨
      ∃ bytes, r = .ok bytes ∧ cnt.toNat ≤ s.ring.level ∧ bytes.val = s.ring.front cnt.toNat := by
  cases h with
  | served h =>
      cases h with
      | served xs hfits hserve hok => exact (Ring.serves_peep hserve).2
  | failed xs hfits hfail heffect =>
      cases hfail with
      | readReg code => exact .inl ⟨code, rfl⟩

theorem shown_of_nonpos {a : Int × List UInt8} (h : a.1 ≤ 0) : shown a = [] := by
  rw [shown, Int.toNat_of_nonpos h, List.take_zero]

/-- A peep removes nothing, and what it returned is what the ring holds next. -/
theorem wlp_peep (s : Feed cap) (buf : List UInt8) (n : UInt32) :
    (RegWrCb.peep regWrCbHandle cb_addr buf n timeout).wlp (feeding cb_addr)
      (fun _ o => Still cap cb_addr o)
      (fun a t => t.removed = s.removed ∧ shown a <+: t.ring.items ∧
        (0 < a.1 → (shown a).length = a.1 ∧ (shown a).length < 65536)) s := by
  have hnone {a : Int × List UInt8} {t : Feed cap} (ha : a.1 ≤ 0) (ht : t.removed = s.removed) :
      t.removed = s.removed ∧ shown a <+: t.ring.items ∧
        (0 < a.1 → (shown a).length = a.1 ∧ (shown a).length < 65536) :=
    ⟨ht, by rw [shown_of_nonpos ha]; exact List.nil_prefix, fun hpos => absurd ha (not_le.mpr hpos)⟩
  rw [RegWrCb.peep, readBy_eq]
  refine ⟨still_size, fun r s₁ answer => ?_⟩
  have hgrown := feeding_still still_size answer
  cases r with
  | error code => exact hnone (le_of_lt code.property) hgrown.1
  | ok size =>
      dsimp only
      split
      · rename_i hneg
        exact hnone (le_of_lt hneg) hgrown.1
      split
      · exact hnone (le_refl _) hgrown.1
      refine ⟨still_peep, fun r s₂ answer => ?_⟩
      have hgrown' := hgrown.trans (feeding_still still_peep answer)
      rcases feeding_peep answer with ⟨code, rfl⟩ | ⟨bytes, rfl, hle, hfront⟩
      · exact hnone (le_of_lt code.property) hgrown'.1
      have hshown (k : UInt16) (hk : bytes.val.length = k.toNat) :
          shown (k.toNat, storeAt buf 0 bytes.val) = bytes.val := by
        rw [shown, Int.toNat_natCast, ← hk, storeAt, List.take_zero, List.nil_append, List.take_left]
      obtain ⟨xs, hitems, -⟩ := (feeding_still still_peep answer).2
      refine ⟨hgrown'.1, ?_, fun _ => ⟨?_, ?_⟩⟩
      · rw [hshown _ bytes.property, hfront, hitems]
        exact (List.take_prefix _ _).trans (List.prefix_append _ _)
      · rw [hshown _ bytes.property, bytes.property]
      · rw [hshown _ bytes.property, bytes.property]
        exact UInt16.toNat_lt _

/-- What was removed since `s` is the first part of `bytes`. -/
def Taken (s : Feed cap) (bytes : List UInt8) (t : Feed cap) : Prop :=
  ∃ piece, piece <+: bytes ∧ t.removed = s.removed ++ piece

/-- Nothing was removed yet, and what is removed next is within `bytes`. -/
def Skips (cb_addr : UInt16) (s : Feed cap) (bytes : List UInt8) (t : Feed cap) (o : RegOp) :
    Prop :=
  t.removed = s.removed ∧ bytes <+: t.ring.items ∧
    (Still cap cb_addr o ∨ ∃ data timeout,
      o = .writeReg (cb_addr + CBREG_CMD_READAIR) data timeout ∧ ofLeBytes data ≤ bytes.length)

theorem taken_step {bytes : List UInt8} {o : RegOp} {r : RegOp.Ans o} {t' : Feed cap}
    (hguard : Skips cb_addr s bytes t o) (answer : feeding cb_addr t o r t') :
    Taken s bytes t' := by
  obtain ⟨hremoved, hprefix, hstill | ⟨data, timeout, rfl, hle⟩⟩ := hguard
  · refine ⟨[], List.nil_prefix, ?_⟩
    rw [(feeding_still hstill answer).1, hremoved, List.append_nil]
  rcases feeding_readAir answer with hsame | ⟨-, htaken⟩
  · exact ⟨[], List.nil_prefix, by rw [hsame, hremoved, List.append_nil]⟩
  refine ⟨t.ring.front (ofLeBytes data), ?_, by rw [htaken, hremoved]⟩
  obtain ⟨rest, hrest⟩ := hprefix
  rw [Fifo.front, ← hrest, List.take_append_of_le_length hle]
  exact List.take_prefix _ _

/-- A skip of what was peeped removes nothing else. -/
theorem wlp_readAir {bytes : List UInt8} (hbytes : bytes <+: s.ring.items) {n : UInt32}
    (hn : n.toNat = bytes.length) :
    (RegWrCb.readAir regWrCbHandle cb_addr n timeout).wlp (feeding cb_addr)
      (Skips cb_addr s bytes) (fun _ t => Taken s bytes t) s := by
  have hnone {t : Feed cap} (ht : t.removed = s.removed) : Taken s bytes t :=
    ⟨[], List.nil_prefix, by rw [ht, List.append_nil]⟩
  rw [readAir_eq]
  refine ⟨⟨rfl, hbytes, .inl still_size⟩, fun r s₁ answer => ?_⟩
  obtain ⟨hremoved, xs, hitems, -⟩ := feeding_still still_size answer
  cases r with
  | error code => exact hnone hremoved
  | ok size =>
      dsimp only
      split
      · exact hnone hremoved
      rename_i hlevel
      split
      · exact hnone hremoved
      obtain ⟨level, hlt, hint⟩ := exists_level hlevel
      have hle : ofLeBytes (bytes32 (airLength n (int32 size.val))) ≤ bytes.length := by
        rw [ofLeBytes_leBytes_of_lt (airLength n (int32 size.val)).toNat_lt, hint,
          toNat_airLength (by omega), ← hn]
        omega
      have hguard : Skips cb_addr s bytes s₁ (.writeReg (cb_addr + CBREG_CMD_READAIR)
          (bytes32 (airLength n (int32 size.val))) timeout) := by
        refine ⟨hremoved, ?_, .inr ⟨_, _, rfl, hle⟩⟩
        rw [hitems]
        exact hbytes.trans (List.prefix_append _ _)
      refine ⟨hguard, fun r s₂ answer => ?_⟩
      have htaken := taken_step hguard answer
      cases r with
      | error code => exact htaken
      | ok u => exact htaken

/-- The rest of a round returns what the peep returned, and removes nothing else. -/
theorem wlp_skipShown {a : Int × List UInt8} (hshown : shown a <+: s.ring.items)
    (hcount : 0 < a.1 → (shown a).length = a.1 ∧ (shown a).length < 65536) :
    (skipShown cb_addr timeout a).wlp (feeding cb_addr) (Skips cb_addr s (shown a))
      (fun a' t => a' = a ∧ Taken s (shown a) t) s := by
  rw [skipShown]
  split
  · rename_i hpos
    obtain ⟨hlen, hsmall⟩ := hcount hpos
    have hn : (UInt32.ofNat a.1.toNat).toNat = (shown a).length := by
      rw [← hlen, Int.toNat_natCast, UInt32.toNat_ofNat']
      omega
    simp only [wlp_bind]
    exact wlp_conseq (wlp_readAir hshown hn) fun _ t htaken => ⟨rfl, htaken⟩
  · exact ⟨rfl, [], List.nil_prefix, (List.append_nil _).symm⟩

theorem Taken.of_removed {bytes : List UInt8} (h : Taken s' bytes t) (hs : s'.removed = s.removed) :
    Taken s bytes t := by
  obtain ⟨piece, hpiece, htaken⟩ := h
  exact ⟨piece, hpiece, by rw [htaken, hs]⟩

/-- At every point of a round nothing was removed, or what was removed was returned before by the
peep of the round. -/
theorem removed_was_peeped {buf : List UInt8} {n : UInt32} {p : Prog RegI (Int × List UInt8)}
    (run : Steps (feeding cb_addr) (consume cb_addr buf n timeout) s p t) :
    t.removed = s.removed ∨ ∃ a u q,
      Exec (feeding cb_addr) (RegWrCb.peep regWrCbHandle cb_addr buf n timeout) s a u ∧
      u.removed = s.removed ∧ Steps (feeding cb_addr) (skipShown cb_addr timeout a) u q t ∧
      Taken s (shown a) t := by
  rw [consume_eq] at run
  rcases steps_bind run with ⟨p', hpeep, -⟩ | ⟨a, u, hpeep, hrest⟩
  · left
    exact Steps.invariant (K := fun t => t.removed = s.removed)
      (fun hs ho answer => (feeding_still ho answer).1.trans hs) hpeep (wlp_peep s buf n) rfl
  obtain ⟨hremoved, hprefix, hcount⟩ := wlp_exec (wlp_peep s buf n) hpeep
  refine .inr ⟨a, u, p, hpeep, hremoved, hrest, Taken.of_removed ?_ hremoved⟩
  exact Steps.invariant (K := Taken u (shown a)) (fun _ hguard answer => taken_step hguard answer)
    hrest (wlp_skipShown hprefix hcount) ⟨[], List.nil_prefix, (List.append_nil _).symm⟩

/-- A round removes a part of what its peep returned. -/
theorem consume_taken {buf : List UInt8} {n : UInt32} {a : Int × List UInt8}
    (run : Exec (feeding cb_addr) (consume cb_addr buf n timeout) s a t) :
    Taken s (shown a) t := by
  rw [consume_eq] at run
  obtain ⟨a', u, hpeep, hrest⟩ := exec_bind.mp run
  obtain ⟨hremoved, hprefix, hcount⟩ := wlp_exec (wlp_peep s buf n) hpeep
  obtain ⟨rfl, htaken⟩ := wlp_exec (wlp_skipShown hprefix hcount) hrest
  exact htaken.of_removed hremoved

end Feed

/-- What left the ring over all rounds is, round by round, a part of what the round returned. -/
theorem consumed_pieces {cb_addr : UInt16} {s s' : Feed cap} {got : List (List UInt8)}
    (h : Consumed cb_addr s got s') :
    ∃ pieces, s'.removed = s.removed ++ pieces.flatten ∧ List.Forall₂ (· <+: ·) pieces got := by
  induction h with
  | start => exact ⟨[], (List.append_nil _).symm, .nil⟩
  | round _ _ _ run ih =>
      obtain ⟨pieces, hremoved, hpieces⟩ := ih
      obtain ⟨piece, hpiece, htaken⟩ := Feed.consume_taken run
      refine ⟨pieces ++ [piece], ?_, List.rel_append hpieces (.cons hpiece .nil)⟩
      rw [htaken, hremoved, List.flatten_append, List.flatten_singleton, List.append_assoc]

/-! ### Rounds without a failure -/

namespace Feed

variable {cb_addr : UInt16} {s s' t : Feed cap} {timeout : UInt32}

theorem failures_mono {o : RegOp} {r : RegOp.Ans o} (h : feeding cb_addr s o r t) :
    s.failures ≤ t.failures := by
  cases h with
  | served h =>
      cases h with
      | served => exact le_refl _
  | failed => exact Nat.le_succ _

theorem failures_mono_steps {α : Type} {p q : Prog RegI α} (run : Steps (feeding cb_addr) p s q t) :
    s.failures ≤ t.failures := by
  induction run with
  | refl => exact le_refl _
  | ask answer _ ih => exact (failures_mono answer).trans ih

/-- In a run that counts no failure every access was served. -/
theorem steps_serving {α : Type} {p q : Prog RegI α} (run : Steps (feeding cb_addr) p s q t)
    (hclean : t.failures = s.failures) : Steps (serving cb_addr) p s q t := by
  induction run with
  | refl => exact .refl _ _
  | ask answer rest ih =>
      have hrest := failures_mono_steps rest
      cases answer with
      | served h =>
          refine .ask h (ih (le_antisymm ?_ hrest))
          rw [hclean]
          exact failures_mono (.served h)
      | failed =>
          simp only [fail, after] at hrest
          omega

theorem serving_size {r : RegOp.Ans (.readReg (cb_addr + CBREG_CMD_GET_SIZE) 4 timeout)}
    (h : serving cb_addr s (.readReg (cb_addr + CBREG_CMD_GET_SIZE) 4 timeout) r t) :
    Grown s t ∧ ∃ size, r = .ok size ∧ size.val = leBytes 4 s.ring.level := by
  refine ⟨feeding_still still_size (.served h), ?_⟩
  cases h with
  | served xs hfits hserve hok => exact (Ring.serves_size hserve).2

theorem serving_peep {cnt : UInt16}
    {r : RegOp.Ans (.readReg (cb_addr + CBREG_CMD_PEEP) cnt timeout)}
    (h : serving cb_addr s (.readReg (cb_addr + CBREG_CMD_PEEP) cnt timeout) r t) :
    Grown s t ∧ ∃ bytes, r = .ok bytes ∧ bytes.val = s.ring.front cnt.toNat := by
  refine ⟨feeding_still still_peep (.served h), ?_⟩
  cases h with
  | served xs hfits hserve hok =>
      rcases (Ring.serves_peep hserve).2 with ⟨code, rfl⟩ | ⟨bytes, rfl, -, hfront⟩
      · exact absurd (.readReg code) hok
      · exact ⟨bytes, rfl, hfront⟩

theorem serving_readAir {data : List UInt8}
    {r : RegOp.Ans (.writeReg (cb_addr + CBREG_CMD_READAIR) data timeout)}
    (h : serving cb_addr s (.writeReg (cb_addr + CBREG_CMD_READAIR) data timeout) r t) :
    r = .ok () ∧ ∃ xs, t.ring.items = (s.ring.pop (ofLeBytes data)).items ++ xs ∧
      t.appended = s.appended ++ xs := by
  cases h with
  | served xs hfits hserve hok =>
      rcases Ring.serves_readAir hserve with ⟨⟨code, rfl⟩, -⟩ | ⟨rfl, -, rfl⟩
      · exact absurd (.writeReg code) hok
      · exact ⟨rfl, xs, rfl, rfl⟩

/-- What a read of `n` bytes returns from the ring `q`. -/
def readResult (buf : List UInt8) (q : Fifo UInt8 cap) (n : Nat) : Int × List UInt8 :=
  (((min q.level n : Nat) : Int), storeAt buf 0 (q.front (min q.level n)))

theorem readResult_empty {buf : List UInt8} {q : Fifo UInt8 cap} {n : Nat} (h : q.level = 0) :
    readResult buf q n = (0, buf) := by
  rw [readResult, h, Nat.zero_min, Fifo.front, List.take_zero, storeAt, List.take_zero]
  rfl

theorem wlp_read (hcap : cap < 2 ^ 31) (q : Fifo UInt8 cap) (buf : List UInt8) {n : UInt32}
    (hn : n.toNat < 65536) :
    (RegWrCb.read regWrCbHandle cb_addr buf n timeout).wlp (Ring.Serves cb_addr) (fun _ _ => True)
      (fun a q' => a = readResult buf q n.toNat ∧ q' = q.pop (min q.level n.toNat)) q := by
  have hlevel : q.level < 2 ^ 31 := by
    have := q.level_le
    omega
  rw [RegWrCb.read, readBy_eq]
  refine ⟨trivial, fun r q₁ answer => ?_⟩
  obtain ⟨rfl, size, rfl, hsize⟩ := Ring.serves_size answer
  have hint : int32 size.val = q₁.level := by
    rw [hsize, int32_leBytes hlevel]
  dsimp only
  rw [hint, if_neg (by omega)]
  by_cases hzero : (q₁.level : Int) = 0
  · have hempty : q₁.level = 0 := Int.natCast_eq_zero.mp hzero
    rw [if_pos hzero]
    refine ⟨(readResult_empty hempty).symm, ?_⟩
    rw [hempty, Nat.zero_min]
    rfl
  rw [if_neg hzero]
  have hlen : (clamp n.toUInt16 q₁.level).toNat = min q₁.level n.toNat := by
    rw [toNat_clamp, UInt32.toNat_toUInt16, Nat.mod_eq_of_lt hn]
  refine ⟨trivial, fun r q₂ answer => ?_⟩
  cases r with
  | error code =>
      have hshort := answer.2.1
      omega
  | ok bytes =>
      rcases Ring.serves_read answer with ⟨⟨code, hcode⟩, -⟩ | ⟨bytes', hbytes, -, hfront, hpop⟩
      · simp at hcode
      obtain rfl := Except.ok.inj hbytes
      have hresult := hfront.trans (congrArg q₁.front hlen)
      exact ⟨by rw [readResult, hresult, hlen], by rw [hpop, hlen]⟩

theorem exec_read (hcap : cap < 2 ^ 31) (q : Fifo UInt8 cap) (buf : List UInt8) {n : UInt32}
    (hn : n.toNat < 65536) :
    Exec (Ring.Serves cb_addr) (RegWrCb.read regWrCbHandle cb_addr buf n timeout) q
      (readResult buf q n.toNat) (q.pop (min q.level n.toNat)) := by
  have hlevel : q.level < 2 ^ 31 := by
    have := q.level_le
    omega
  let size : {bytes : List UInt8 // bytes.length = (4 : UInt16).toNat} :=
    ⟨leBytes 4 q.level, length_leBytes _ _⟩
  have hsize : Ring.Serves cb_addr q (.readReg (cb_addr + CBREG_CMD_GET_SIZE) 4 timeout) (.ok size)
      q := .inl ⟨rfl, rfl, rfl⟩
  have hint : int32 size.val = q.level := int32_leBytes hlevel
  rw [RegWrCb.read, readBy_eq]
  refine .ask hsize ?_
  dsimp only
  rw [hint, if_neg (by omega)]
  by_cases hzero : (q.level : Int) = 0
  · have hempty : q.level = 0 := Int.natCast_eq_zero.mp hzero
    rw [if_pos hzero, readResult_empty hempty, hempty, Nat.zero_min]
    exact .refl _ _
  rw [if_neg hzero]
  have hlen : (clamp n.toUInt16 q.level).toNat = min q.level n.toNat := by
    rw [toNat_clamp, UInt32.toNat_toUInt16, Nat.mod_eq_of_lt hn]
  have hle : (clamp n.toUInt16 q.level).toNat ≤ q.level := by
    rw [hlen]
    exact Nat.min_le_left _ _
  have hread : Ring.Serves cb_addr q
      (.readReg (cb_addr + CBREG_CMD_READ) (clamp n.toUInt16 q.level) timeout)
      (.ok ⟨q.front (clamp n.toUInt16 q.level).toNat, Fifo.length_front hle⟩)
      (q.pop (clamp n.toUInt16 q.level).toNat) :=
    .inr (.inr (.inl ⟨rfl, hle, rfl, rfl⟩))
  rw [readResult, ← hlen]
  exact .ask hread (.refl _ _)

/-- A peep returns what a read would have returned. -/
theorem wlp_peep_serving (hcap : cap < 2 ^ 31) (s : Feed cap) (buf : List UInt8) {n : UInt32}
    (hn : n.toNat < 65536) :
    (RegWrCb.peep regWrCbHandle cb_addr buf n timeout).wlp (serving cb_addr) (fun _ _ => True)
      (fun a t => a = readResult buf s.ring n.toNat ∧ Grown s t) s := by
  have hlevel : s.ring.level < 2 ^ 31 := by
    have := s.ring.level_le
    omega
  rw [RegWrCb.peep, readBy_eq]
  refine ⟨trivial, fun r s₁ answer => ?_⟩
  obtain ⟨hgrown, size, rfl, hsize⟩ := serving_size answer
  have hint : int32 size.val = s.ring.level := by
    rw [hsize, int32_leBytes hlevel]
  dsimp only
  rw [hint, if_neg (by omega)]
  by_cases hzero : (s.ring.level : Int) = 0
  · rw [if_pos hzero]
    exact ⟨(readResult_empty (Int.natCast_eq_zero.mp hzero)).symm, hgrown⟩
  rw [if_neg hzero]
  have hlen : (clamp n.toUInt16 s.ring.level).toNat = min s.ring.level n.toNat := by
    rw [toNat_clamp, UInt32.toNat_toUInt16, Nat.mod_eq_of_lt hn]
  refine ⟨trivial, fun r s₂ answer => ?_⟩
  obtain ⟨hgrown', bytes, rfl, hfront⟩ := serving_peep answer
  refine ⟨?_, hgrown.trans hgrown'⟩
  -- what was appended in between stands behind the bytes that are shown
  obtain ⟨-, xs, hitems, -⟩ := hgrown
  have hshown : s₁.ring.front (min s.ring.level n.toNat) =
      s.ring.front (min s.ring.level n.toNat) := Fifo.front_grown hitems (Nat.min_le_left _ _)
  have hresult := (hfront.trans (congrArg s₁.ring.front hlen)).trans hshown
  rw [readResult, hresult, hlen]

/-- A skip of bytes the ring holds removes them all. -/
theorem wlp_readAir_serving (hcap : cap < 2 ^ 31) (s : Feed cap) {n : UInt32} (hpos : 0 < n.toNat)
    (hsmall : n.toNat < 65536) (hn : n.toNat ≤ s.ring.level) :
    (RegWrCb.readAir regWrCbHandle cb_addr n timeout).wlp (serving cb_addr) (fun _ _ => True)
      (fun _ t => ∃ xs, t.appended = s.appended ++ xs ∧
        t.ring.items = (s.ring.pop n.toNat).items ++ xs) s := by
  have hlevel : s.ring.level < 2 ^ 31 := by
    have := s.ring.level_le
    omega
  rw [readAir_eq]
  refine ⟨trivial, fun r s₁ answer => ?_⟩
  obtain ⟨⟨-, xs, hitems, happended⟩, size, rfl, hsize⟩ := serving_size answer
  have hint : int32 size.val = s.ring.level := by
    rw [hsize, int32_leBytes hlevel]
  dsimp only
  rw [hint, if_neg (by omega), if_neg (by omega)]
  have hlen : ofLeBytes (bytes32 (airLength n s.ring.level)) = n.toNat := by
    rw [ofLeBytes_leBytes_of_lt (airLength n s.ring.level).toNat_lt, toNat_airLength (by omega)]
    omega
  refine ⟨trivial, fun r s₂ answer => ?_⟩
  obtain ⟨rfl, ys, hitems', happended'⟩ := serving_readAir answer
  refine ⟨xs ++ ys, by rw [happended', happended, List.append_assoc], ?_⟩
  rw [hitems', hlen, Fifo.pop_grown hitems hn, List.append_assoc]

/-- A round does what a read does. -/
theorem wlp_consume (hcap : cap < 2 ^ 31) (s : Feed cap) (buf : List UInt8) {n : UInt32}
    (hpos : 0 < n.toNat) (hn : n.toNat < 65536) :
    (consume cb_addr buf n timeout).wlp (serving cb_addr) (fun _ _ => True)
      (fun a t => a = readResult buf s.ring n.toNat ∧
        ∃ xs, t.appended = s.appended ++ xs ∧
          t.ring.items = (s.ring.pop (min s.ring.level n.toNat)).items ++ xs) s := by
  rw [consume_eq, wlp_bind]
  refine wlp_conseq (wlp_peep_serving hcap s buf hn) fun a s₁ ha => ?_
  obtain ⟨rfl, -, xs, hitems, happended⟩ := ha
  rw [skipShown]
  split
  · rename_i hsome
    have hk : (UInt32.ofNat (readResult buf s.ring n.toNat).1.toNat).toNat =
        min s.ring.level n.toNat := by
      rw [readResult, Int.toNat_natCast, UInt32.toNat_ofNat']
      omega
    have hheld : min s.ring.level n.toNat ≤ s₁.ring.level := by
      rw [Fifo.level_grown hitems]
      exact (Nat.min_le_left _ _).trans (Nat.le_add_right _ _)
    have hk0 : 0 < min s.ring.level n.toNat := Int.natCast_pos.mp hsome
    simp only [wlp_bind]
    refine wlp_conseq (wlp_readAir_serving hcap s₁ (hk ▸ hk0) (by omega) (hk ▸ hheld)) ?_
    intro ret t ht
    obtain ⟨ys, happended', hitems'⟩ := ht
    refine ⟨rfl, xs ++ ys, by rw [happended', happended, List.append_assoc], ?_⟩
    rw [hitems', hk, Fifo.pop_grown hitems (Nat.min_le_left _ _), List.append_assoc]
  · rename_i hnone
    have hk0 : min s.ring.level n.toNat = 0 :=
      Nat.eq_zero_of_not_pos fun h => hnone (Int.natCast_pos.mpr h)
    refine ⟨rfl, xs, happended, ?_⟩
    rw [hk0, hitems]
    rfl

end Feed

/-- A consumer that peeps and then skips, while the MCU appends and accesses fail as they like. Over
all rounds, what left the ring is piece by piece what the rounds returned; within a round nothing
leaves it before the peep has returned it; and, on a ring no larger than the `int` of the size
register can say, a round without a failure returns what one read at its first access would have
returned, and leaves what that read and the same appends would have left. -/
theorem peep_readAir_loss_free {cb_addr : UInt16} {s₀ s : Feed cap} {got : List (List UInt8)}
    (hgot : Consumed cb_addr s₀ got s) (buf : List UInt8) {n : UInt32} (timeout : UInt32)
    (hpos : 0 < n.toNat) (hsmall : n.toNat ≤ 1022) :
    (∃ pieces, s.removed = s₀.removed ++ pieces.flatten ∧
      List.Forall₂ (· <+: ·) pieces got) ∧
    (∀ p t, Steps (feeding cb_addr) (consume cb_addr buf n timeout) s p t →
      t.removed = s.removed ∨ ∃ a u q,
        Exec (feeding cb_addr) (RegWrCb.peep regWrCbHandle cb_addr buf n timeout) s a u ∧
        u.removed = s.removed ∧ Steps (feeding cb_addr) (skipShown cb_addr timeout a) u q t ∧
        ∃ piece, piece <+: shown a ∧ t.removed = s.removed ++ piece) ∧
    (cap < 2 ^ 31 → ∀ a t, Exec (feeding cb_addr) (consume cb_addr buf n timeout) s a t →
      t.failures = s.failures → ∃ xs, t.appended = s.appended ++ xs ∧
        (∃ q, Exec (Ring.Serves cb_addr) (RegWrCb.read regWrCbHandle cb_addr buf n timeout) s.ring
          a q) ∧
        ∀ a' q, Exec (Ring.Serves cb_addr) (RegWrCb.read regWrCbHandle cb_addr buf n timeout) s.ring
          a' q → a' = a ∧ t.ring.items = q.items ++ xs) := by
  refine ⟨consumed_pieces hgot, fun p t run => Feed.removed_was_peeped run,
    fun hcap a t run hclean => ?_⟩
  obtain ⟨rfl, xs, happended, hitems⟩ :=
    wlp_exec (Feed.wlp_consume hcap s buf hpos (by omega)) (Feed.steps_serving run hclean)
  refine ⟨xs, happended, ⟨_, Feed.exec_read hcap s.ring buf (by omega)⟩, fun a' q hread => ?_⟩
  obtain ⟨rfl, rfl⟩ := wlp_exec (Feed.wlp_read hcap s.ring buf (by omega)) hread
  exact ⟨rfl, hitems⟩

/-- A ring with three bytes. -/
def threeBytes : Feed 8 := ⟨⟨[1, 2, 3], by decide⟩, [], [], 0⟩

theorem exec_consume_threeBytes :
    ∃ t, Exec (feeding RWREG_CB_MPU_BUSINESS_RECEIVE_CAN_START)
      (consume RWREG_CB_MPU_BUSINESS_RECEIVE_CAN_START [] 8 100) threeBytes (3, [1, 2, 3]) t ∧
      t.failures = 0 ∧ t.appended = [] := by
  have hsize (s : Feed 8) : feeding RWREG_CB_MPU_BUSINESS_RECEIVE_CAN_START s
      (.readReg (RWREG_CB_MPU_BUSINESS_RECEIVE_CAN_START + CBREG_CMD_GET_SIZE) 4 100)
      (.ok ⟨leBytes 4 s.ring.level, length_leBytes ..⟩) (s.after s.ring [] (Nat.zero_le _)) :=
    .served (.served [] _ (.inl ⟨rfl, rfl, rfl⟩) nofun)
  have hpeep (s : Feed 8) (h : 3 ≤ s.ring.level) : feeding RWREG_CB_MPU_BUSINESS_RECEIVE_CAN_START s
      (.readReg (RWREG_CB_MPU_BUSINESS_RECEIVE_CAN_START + CBREG_CMD_PEEP) 3 100)
      (.ok ⟨s.ring.front 3, Fifo.length_front h⟩) (s.after s.ring [] (Nat.zero_le _)) :=
    .served (.served [] _ (.inr (.inr (.inr ⟨rfl, h, rfl, rfl⟩))) nofun)
  have hskip (s : Feed 8) (h : 3 ≤ s.ring.level) : feeding RWREG_CB_MPU_BUSINESS_RECEIVE_CAN_START s
      (.writeReg (RWREG_CB_MPU_BUSINESS_RECEIVE_CAN_START + CBREG_CMD_READAIR) (bytes32 3) 100)
      (.ok ()) (s.after (s.ring.pop 3) [] (Nat.zero_le _)) :=
    .served (.served [] _ (.inr (.inr ⟨rfl, h, rfl⟩)) nofun)
  exact ⟨_, .ask (hsize _) (.ask (hpeep _ (by decide)) (.ask (hsize _) (.ask (hskip _ (by decide))
    (.refl _ _)))), rfl, rfl⟩

theorem peep_readAir_loss_free_three_bytes :
    ∃ t q,
      Exec (feeding RWREG_CB_MPU_BUSINESS_RECEIVE_CAN_START)
        (consume RWREG_CB_MPU_BUSINESS_RECEIVE_CAN_START [] 8 100) threeBytes (3, [1, 2, 3]) t ∧
      Exec (Ring.Serves RWREG_CB_MPU_BUSINESS_RECEIVE_CAN_START)
        (RegWrCb.read regWrCbHandle RWREG_CB_MPU_BUSINESS_RECEIVE_CAN_START [] 8 100)
        threeBytes.ring (3, [1, 2, 3]) q ∧
      t.ring.items = q.items := by
  obtain ⟨t, run, hclean, happended⟩ := exec_consume_threeBytes
  obtain ⟨xs, hxs, ⟨q, hread⟩, hall⟩ :=
    (peep_readAir_loss_free .start [] 100 (by decide) (by decide)).2.2 (by decide) _ t run hclean
  obtain rfl : xs = [] := hxs.symm.trans happended
  have hitems := (hall _ q hread).2
  rw [List.append_nil] at hitems
  exact ⟨t, q, run, hread, hitems⟩

end McuRegWr
