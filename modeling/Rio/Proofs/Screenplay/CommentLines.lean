import Rio.Proofs.Bytecode.Listing
import Rio.Proofs.Screenplay.Remarks
import Rio.Proofs.Screenplay.SkipGuards

/-!
# Comments of one line

A line of a comment that is not its first is code to whoever reads the script, so what a comment
takes over from a script must not have line breaks. Listings are single lines, numbers and the
names of transitions are words, and references to flags are put together from the names in the
profile:

> `Remark.oneLine_text`: a comment is one line if the texts that it takes over are;
> `noted_oneLine`: those of a command are, if it sets no mask.

The name of a mask is taken over as it is, and `transpile_comments` says that this is all that can
break a comment.
-/

namespace Rio

open Literal

/-! ## Wordings -/

namespace Renpy

/-- The texts that a comment takes over as they are. -/
def Remark.quotes : Remark → List String
  | .listing line | .unhandled line => [line]
  | .hintedBranch reference .. | .hintedChoice reference | .droppedAssign reference _ => [reference]
  | .hintedAssign reference _ value => [reference, value]
  | .maskSet mask => [mask]
  | .needsGfxNext transition => [transition]
  | .unknownTransition method time => [method, time]
  | .verbatim text => [text]
  | _ => []

/-- Channels have names that are made of words. -/
theorem oneLine_channelName (channel : Int) : OneLine (channelName channel) := by
  unfold channelName
  split
  · exact oneLine_ofList rfl
  · exact OneLine.append (oneLine_ofList rfl) (isWord_intToString _).oneLine

/-- Every doubt about an animation is worded in one line. -/
theorem oneLine_doubt (why : AnimationDoubt) : OneLine why.text := by
  cases why with
  | noBranch => exact OneLine.append (oneLine_ofList rfl) (oneLine_ofList rfl)
  | _ => exact oneLine_ofList rfl

/-- A comment is one line if the texts that it takes over are. -/
theorem Remark.oneLine_text {r : Remark} (h : ∀ text ∈ r.quotes, OneLine text) :
    OneLine r.text := by
  have hint : ∀ n : Int, OneLine (toString n) := fun n => (isWord_intToString n).oneLine
  have hnat : ∀ n : Nat, OneLine (toString n) := fun n => (isWord_toString n).oneLine
  have hcmp : ∀ cmp : Comparison, OneLine cmp.symbol :=
    fun cmp => by cases cmp <;> exact oneLine_ofList rfl
  have hspace : OneLine " " := oneLine_ofList rfl
  have hop : ∀ op : AssignOp, OneLine op.symbol :=
    fun op => by cases op <;> exact oneLine_ofList rfl
  cases r with
  | listing line | unhandled line => exact .append (oneLine_ofList rfl) (h _ List.mem_cons_self)
  | hintedBranch reference cmp value =>
    have hreference : OneLine ("[jmp] if " ++ reference ++ " ") :=
      .append (.append (oneLine_ofList rfl) (h _ List.mem_cons_self)) hspace
    have hcondition := (hreference.append (hcmp cmp)).append hspace
    exact (hcondition.append (hint value)).append (oneLine_ofList rfl)
  | hintedChoice reference =>
    exact .append (.append (oneLine_ofList rfl) (h _ List.mem_cons_self)) (oneLine_ofList rfl)
  | hintedAssign reference op value =>
    have hreference : OneLine ("$ " ++ reference ++ " ") :=
      .append (.append (oneLine_ofList rfl) (h _ List.mem_cons_self)) hspace
    exact ((hreference.append (hop op)).append hspace).append
      (h _ (List.mem_cons_of_mem _ List.mem_cons_self))
  | droppedAssign reference op =>
    have hreference : OneLine ("[warning:set] Right side of `" ++ reference ++ " ") :=
      .append (.append (oneLine_ofList rfl) (h _ List.mem_cons_self)) hspace
    exact (hreference.append (hop op)).append (oneLine_ofList rfl)
  | maskSet mask => exact .append (oneLine_ofList rfl) (h _ List.mem_cons_self)
  | needsGfxNext transition =>
    exact .append (.append (oneLine_ofList rfl) (h _ List.mem_cons_self)) (oneLine_ofList rfl)
  | unknownTransition method time =>
    have hmethod : OneLine ("[warning:transition] unknown method " ++ method ++ ", time: ") :=
      .append (.append (oneLine_ofList rfl) (h _ List.mem_cons_self)) (oneLine_ofList rfl)
    exact (hmethod.append (h _ (List.mem_cons_of_mem _ List.mem_cons_self))).append
      (oneLine_ofList rfl)
  | verbatim text => exact h _ List.mem_cons_self
  | skipStart index | skipEnd index => exact .append (oneLine_ofList rfl) (hnat index)
  | unmappedFlag n | revealDuration n | unknownTextSize n | clearForeground n | unknownWeather n
  | unknownScreenEffect n => exact .append (oneLine_ofList rfl) (hint n)
  | inaccessibleBranch n | revealFromFlag n | clearedForeground n =>
    exact .append (.append (oneLine_ofList rfl) (hint n)) (oneLine_ofList rfl)
  | inaccessibleChoice n =>
    exact .append (.append (oneLine_ofList rfl) (hnat n)) (oneLine_ofList rfl)
  | hintedSource level value =>
    exact .append (.append (.append (oneLine_ofList rfl) (hnat level)) (oneLine_ofList rfl))
      (hint value)
  | registerChannel channel =>
    exact .append (.append (oneLine_ofList rfl) (oneLine_channelName channel)) (oneLine_ofList rfl)
  | notAnimated why => exact oneLine_doubt why
  | playDelayed => exact .append (oneLine_ofList rfl) (oneLine_ofList rfl)
  | generated | interrupted | saidUnderMenu | pauseInlined | negativeChannel |
      viewportWithoutBackground
  | replacementInhibited | clearObject | missingBackground => exact oneLine_ofList rfl

/-- The comment about a mask has its name as it is. -/
theorem oneLine_maskSet_iff {mask : String} :
    OneLine (Remark.maskSet mask).text ↔ OneLine mask := by
  have hlead : OneLine "[gfx] trans_mask = " := oneLine_ofList rfl
  unfold Remark.text
  rw [oneLine_append_iff, and_iff_right hlead]

end Renpy

/-! ## References to flags -/

/-- The names of banks and flags have no line breaks. -/
structure Profile.OneLineNames (p : Profile) : Prop where
  bank : ∀ bank ∈ p.flagBanks, OneLine bank.name
  flag : ∀ entry ∈ p.flags, ∀ name ∈ entry.2.name, OneLine name

/-- The expression for a flag, if there is one, has no line break. -/
def FlagAccess.IsOneLine : FlagAccess → Prop
  | .granted reference | .hinted reference => OneLine reference
  | .excluded | .unmapped => True

namespace Profile

variable {p : Profile}

/-- A reference is made of the name of a bank and an address or a name. -/
theorem oneLine_referenceIn {bank : FlagBank} {name : Option String} (hbank : OneLine bank.name)
    (addr : Nat) (hname : ∀ n ∈ name, OneLine n) : OneLine (referenceIn bank addr name) := by
  cases name with
  | none =>
    exact ((hbank.append (oneLine_ofList rfl)).append (isWord_toString addr).oneLine).append
      (oneLine_ofList rfl)
  | some n =>
    exact ((hbank.append (oneLine_ofList rfl)).append (hname n rfl)).append (oneLine_ofList rfl)

/-- By cases on the bank and on the policy of the flag. -/
theorem isOneLine_access (hp : p.OneLineNames) (addr : Nat) : (p.access addr).IsOneLine := by
  unfold access
  cases hbank : p.bankFor? addr with
  | none => trivial
  | some bank =>
    have hbankName := hp.bank bank (List.mem_of_find?_eq_some hbank)
    cases hentry : p.flag? addr with
    | none => exact oneLine_referenceIn hbankName addr fun _ heq => by cases heq
    | some entry =>
      have hmem : (addr, entry) ∈ p.flags := by
        obtain ⟨front, behind, heq, -⟩ := List.lookup_eq_some_iff.mp hentry
        rw [heq]
        exact List.mem_append_right _ List.mem_cons_self
      have hreference := oneLine_referenceIn hbankName addr (hp.flag _ hmem)
      dsimp only
      cases entry.policy with
      | allow | hint => exact hreference
      | exclude => trivial

/-- The expression for all banks is one line if their names are. -/
theorem oneLine_combinedBanks (hp : p.OneLineNames) : OneLine p.combinedBanks := by
  unfold combinedBanks
  cases hbanks : p.flagBanks with
  | nil => exact oneLine_ofList rfl
  | cons bank banks =>
    have hname : ∀ b ∈ bank :: banks, OneLine b.name := fun b hb => hp.bank b (hbanks ▸ hb)
    refine (hname bank List.mem_cons_self).append (oneLine_join fun t ht => ?_)
    obtain ⟨b, hb, rfl⟩ := List.mem_map.mp ht
    exact .append (.append (oneLine_ofList rfl) (hname b (List.mem_cons_of_mem _ hb)))
      (oneLine_ofList rfl)

theorem isOneLine_accessThrough (hp : p.OneLineNames) (addr : Nat) :
    (p.accessThrough addr).IsOneLine := by
  have haccess := isOneLine_access hp addr
  unfold accessThrough
  generalize p.access addr = found at haccess ⊢
  cases found with
  | granted reference =>
    have hbanks : OneLine (p.combinedBanks ++ "[") :=
      (oneLine_combinedBanks hp).append (oneLine_ofList rfl)
    exact (hbanks.append haccess).append (oneLine_ofList rfl)
  | hinted reference => exact haccess
  | excluded | unmapped => trivial

end Profile

/-! ## Commands -/

namespace Screenplay

open Renpy (AssignOp Document Remark)

variable {c : Context} {s s' : State} {i : Instruction} {rest : List Instruction}
  {command : Command}

theorem isOneLine_flagAccess (hp : c.profile.OneLineNames) (flag : Int) :
    (flagAccess c.profile flag).IsOneLine := by
  unfold flagAccess
  split
  · exact Profile.isOneLine_access hp _
  · trivial

theorem isOneLine_flagAccessThrough (hp : c.profile.OneLineNames) (flag : Int) :
    (flagAccessThrough c.profile flag).IsOneLine := by
  unfold flagAccessThrough
  split
  · exact Profile.isOneLine_accessThrough hp _
  · trivial

theorem oneLine_of_reference? {found : FlagAccess} (hfound : found.IsOneLine) {reference : String}
    (h : found.reference? = some reference) : OneLine reference := by
  cases found with
  | granted r =>
    cases h
    exact hfound
  | hinted r | excluded | unmapped => cases h

/-- What is assigned is a number, or a reference, or nothing. -/
theorem oneLine_sourceText (hp : c.profile.OneLineNames) (s : State) (op : AssignOp)
    (source : Source) :
    OneLine ((sourceText c s op source).1.getD "<NO_RESULT>") := by
  have hread : ∀ {found : FlagAccess}, found.IsOneLine →
      OneLine (found.reference?.getD "<NO_RESULT>") := by
    intro found hfound
    cases h : found.reference? with
    | none => exact oneLine_ofList rfl
    | some reference => exact oneLine_of_reference? hfound h
  cases source with
  | immediate value =>
    show OneLine (immediateText op value)
    unfold immediateText
    split
    · exact oneLine_ofList rfl
    · split
      · exact oneLine_ofList rfl
      · exact (isWord_intToString value).oneLine
  | flag addr =>
    unfold sourceText
    rw [access_fst]
    exact hread (isOneLine_flagAccess hp addr)
  | through addr =>
    unfold sourceText
    rw [access_fst]
    exact hread (isOneLine_flagAccessThrough hp addr)

/-- The commands with comments that take over texts. -/
def Command.isQuoting : Command → Bool
  | .branch _ | .menu _ | .assign .. | .random .. | .mask _ | .transition .. => true
  | _ => false

/-- Commands that quote nothing add no remark with a quotation. -/
theorem quotes_eq_nil {r : Remark} (hquoting : command.isQuoting = false)
    (h : command.notes r = true) :
    r.quotes = [] := by
  cases r with
  | listing | unhandled | hintedBranch | hintedChoice | hintedAssign | droppedAssign | maskSet |
      needsGfxNext
  | unknownTransition | verbatim =>
    cases command with
    | branch | menu | assign | random | mask | transition => cases hquoting
    | _ => cases h
  | _ => rfl

/-- What the comments of a command take over has no line break, the name of a mask aside. -/
theorem noted_oneLine (hp : c.profile.OneLineNames) (hmask : ∀ raw, command ≠ .mask raw)
    (hmove : c.profile.moveSayIntoMenu = false → s.held = none)
    (h : execute c i rest s command = .ok s') :
    Noted (fun r => ∀ text ∈ r.quotes, OneLine text) s s' := by
  have hnone : ∀ text ∈ ([] : List String), OneLine text := List.forall_mem_nil _
  have hone : ∀ {reference : String}, OneLine reference → ∀ text ∈ [reference], OneLine text :=
    List.forall_mem_singleton.mpr
  have htwo : ∀ {left right : String}, OneLine left → OneLine right → ∀ text ∈ [left, right],
      OneLine text :=
    fun hleft hright => List.forall_mem_cons.mpr ⟨hleft, hone hright⟩
  have hhinted : ∀ {flag : Int} {reference : String},
      flagAccess c.profile flag = .hinted reference →
      OneLine reference := by
    intro flag reference hfound
    have haccess := isOneLine_flagAccess hp flag
    rwa [hfound] at haccess
  -- the table of comments is enough for the commands that take over nothing
  by_cases hquoting : command.isQuoting = false
  · refine (noted_execute hmove h).mono fun r hr => ?_
    rw [quotes_eq_nil hquoting hr.1]
    exact hnone
  · cases command with
    | branch b =>
      obtain rfl := Except.ok.inj h
      exact noted_branch (fun _ hfound => hone (hhinted hfound)) hnone hnone
    | menu choices =>
      have hchoice : ∀ t o, Noted (fun r => ∀ text ∈ r.quotes, OneLine text) t
          (choice c t o) := fun t o =>
        noted_choice t (fun _ hfound => hone (hhinted hfound)) hnone hnone
      exact noted_menu hchoice (fun _ => hnone) hmove h
    | assign flag op source =>
      obtain rfl := Except.ok.inj h
      refine noted_assign (fun _ _ => hnone) (fun _ => hnone) (fun _ hfound => ?_)
        (fun _ hreference => ?_)
      · exact htwo (hhinted hfound) (oneLine_sourceText hp s op source)
      · exact hone (oneLine_of_reference? (isOneLine_flagAccess hp flag) hreference)
    | random flag max =>
      obtain rfl := Except.ok.inj h
      refine noted_assignRandom hnone fun _ hfound => htwo (hhinted hfound) ?_
      exact .append (.append (oneLine_ofList rfl) (isWord_intToString max).oneLine)
        (oneLine_ofList rfl)
    | mask raw => exact absurd rfl (hmask raw)
    | transition method ms =>
      have hmethod : OneLine method.name := by
        cases method with
        | named t => exact (isWord_transition t).oneLine
        | code n => exact (isWord_intToString n).oneLine
      exact noted_transition (htwo hmethod (isWord_ofFloat _).oneLine) (hone hmethod) h
    | _ => exact absurd rfl hquoting

/-! ## The whole run -/

/-- What a comment takes over has no line break, or it is the name of a mask that the run sets. -/
def QuotesSafely (c : Context) (i : Instruction) (r : Remark) : Prop :=
  (∀ text ∈ r.quotes, OneLine text) ∨
    ∃ rest s raw, Reached c (i :: rest) s ∧ Reading.ofInstruction i = .command (.mask raw) ∧
      r = .maskSet (c.text raw)

/-- A step quotes in one line all but the name of a mask. -/
theorem quotesSafely_step (hp : c.profile.OneLineNames) (hs : Reached c (i :: rest) s) :
    Noted (QuotesSafely c i) s (outcome (step c s i rest)) := by
  have hlisting : ∀ text ∈ [i.listing c.profile.charset c.profile.readers], OneLine text :=
    List.forall_mem_singleton.mpr (oneLine_listing c.profile.charset c.profile.readers i)
  have hnone : ∀ text ∈ ([] : List String), OneLine text := List.forall_mem_nil _
  refine noted_step_of (held_of_reached hs) rest (fun _ => .inl hnone) (fun _ => .inl hnone)
    (.inl hlisting)
    (fun _ => .inl hlisting) fun command t t' hread hheld hexec => ?_
  by_cases hmask : ∃ raw, command = .mask raw
  · -- the one comment with text of the script that nothing escapes
    obtain ⟨raw, rfl⟩ := hmask
    obtain rfl := Except.ok.inj hexec
    exact .one (.inr ⟨rest, s, raw, hs, hread, rfl⟩) (t.document.remarks_comment _)
  · exact (noted_oneLine hp (fun raw heq => hmask ⟨raw, heq⟩) hheld hexec).mono fun _ => .inl

section

variable {name : String} {script : List UInt8} {p : Profile}

/-- Every comment has one line, or it is that of a mask that the run sets. -/
theorem oneLine_or_maskSet (hp : p.OneLineNames) {r : Remark}
    (hr : r ∈ (transpile name script p).document.remarks) :
    OneLine r.text ∨ ∃ i rest s raw, Reached (scriptContext name script p) (i :: rest) s ∧
      Reading.ofInstruction i = .command (.mask raw) ∧ r = .maskSet (p.text raw) := by
  have hsteps :=
    remarks_of_steps (fun i rest s hs => quotesSafely_step (c := scriptContext name script p) hp hs)
    (outcome_transpile name script p)
  rcases hsteps r hr with rfl | rfl | ⟨i, -, hquotes | ⟨rest, s, raw, hs, hread, rfl⟩⟩
  · exact .inl (Remark.oneLine_text (List.forall_mem_nil _))
  · exact .inl (Remark.oneLine_text (List.forall_mem_nil _))
  · exact .inl (Remark.oneLine_text hquotes)
  · exact .inr ⟨i, rest, s, raw, hs, hread, rfl⟩

/-- The comment of a mask that the run sets is in the script. -/
theorem maskSet_mem_remarks {raw : List UInt8}
    (hs : Reached (scriptContext name script p) (i :: rest) s)
    (hread : Reading.ofInstruction i = .command (.mask raw)) :
    .maskSet (p.text raw) ∈ (transpile name script p).document.remarks := by
  have hmem : .maskSet (p.text raw)
      ∈ (outcome (step (scriptContext name script p) s i rest)).document.remarks := by
    rw [step_of_reading hread]
    show _ ∈ Document.remarks (Document.comment _ _)
    rw [Document.remarks_comment]
    exact List.mem_append_right _ List.mem_cons_self
  exact ((entries_transpile_of_reached hs).filterMap _).subset hmem

end

end Screenplay

open Screenplay

/-- A comment is written behind its indentation and `# `, and is one line unless it names a mask:
the name is taken over as the script has it. So all comments of a script are of one line exactly
if the names of the masks that are set in its run are. -/
theorem transpile_comments (name : String) (script : List UInt8) {p : Profile}
    (hp : p.OneLineNames) :
    let c := scriptContext name script p
    let document := (transpile name script p).document
    (∀ e ∈ document.entries.toList, ∀ r, e.content = .comment r →
      e.line Renpy.Document.indentUnit = String.join (List.replicate e.depth "  ")
        ++ ("# " ++ r.text) ++ "\n" ∧
      (OneLine r.text ∨ ∃ i rest s raw, Reached c (i :: rest) s ∧
        Reading.ofInstruction i = .command (.mask raw) ∧ r = .maskSet (p.text raw))) ∧
    ((∀ r ∈ document.remarks, OneLine r.text) ↔ ∀ i rest s raw, Reached c (i :: rest) s →
      Reading.ofInstruction i = .command (.mask raw) → OneLine (p.text raw)) := by
  intro c document
  refine ⟨fun e he r hr =>
    ⟨?_, oneLine_or_maskSet hp (Renpy.Document.mem_remarks_iff.mpr ⟨e, he, hr⟩)⟩, ?_, ?_⟩
  · unfold Renpy.Entry.line
    rw [hr]
    rfl
  · intro hall i rest s raw hs hread
    exact Renpy.oneLine_maskSet_iff.mp (hall (.maskSet (p.text raw)) (maskSet_mem_remarks hs hread))
  · intro hmasks r hr
    rcases oneLine_or_maskSet hp hr with hone | ⟨i, rest, s, raw, hs, hread, rfl⟩
    · exact hone
    · exact Renpy.oneLine_maskSet_iff.mpr (hmasks i rest s raw hs hread)

/-- The names of the default profile are one line each. -/
theorem oneLineNames_default : ({} : Profile).OneLineNames :=
  ⟨by decide +kernel, by decide +kernel⟩

/-- The name of an event with a line break in it, and a mask. -/
def eventAndMask : List UInt8 :=
  [0xe0, 0x61, 0x0a, 0x62, 0, 0x54, 0x6d, 0]

/-- The listing of the event name is one line, as is the comment of the mask. -/
theorem comments_of_eventAndMask :
    ({} : Profile).OneLineNames ∧
      .listing "0x0:event_name(\"a\\nb\")" ∈ (transpile "a" eventAndMask {}).document.remarks ∧
      ∀ r ∈ (transpile "a" eventAndMask {}).document.remarks, OneLine r.text := by
  refine ⟨oneLineNames_default, ?_, ?_⟩
  · have hbuild : BlockGraph.build (Bytecode.decode .standard true eventAndMask)
        = ⟨[⟨0, some 8, .linear, none, none, [], []⟩]⟩ :=
      BlockGraph.build_eq_of_perm (by decide +kernel) (by decide)
    have hremarks : (transpile "a" eventAndMask {}).document.remarks
        = [.generated, .listing "0x0:event_name(\"a\\nb\")",
            .listing "0x5:set_trans_mask(\"m\")", .maskSet "m"] := by
      rw [(transpile_of_build "a" eventAndMask {} hbuild).1]
      decide +kernel
    rw [hremarks]
    exact List.mem_cons_of_mem _ List.mem_cons_self
  · refine (transpile_comments "a" eventAndMask oneLineNames_default).2.mpr
      fun i rest s raw hs hread => ?_
    have hmem : i ∈ Bytecode.decode .standard true eventAndMask := Runs.mem hs
    have hdecode : Bytecode.decode .standard true eventAndMask
        = [⟨0, 5, some 0xe0, .eventName, [.bytes [0x61, 0x0a, 0x62]]⟩,
            ⟨5, 3, some 0x54, .setTransMask, [.bytes [0x6d]]⟩, ⟨8, 0, none, .endOfStream, []⟩] := by
      decide +kernel
    rw [hdecode] at hmem
    simp only [List.mem_cons, List.not_mem_nil, or_false] at hmem
    rcases hmem with rfl | rfl | rfl
    · cases hread
    · cases hread
      decide +kernel
    · cases hread

/-- A mask with a line break in its name. -/
def brokenMask : List UInt8 :=
  [0x54, 0x61, 0x0a, 0x62, 0]

/-- The second line of the comment is no comment. -/
theorem comment_broken :
    ({ includeListing := false } : Profile).OneLineNames ∧
      (transpile "a" brokenMask { includeListing := false }).document.remarks
        = [.generated, .maskSet "a\nb"] ∧
      ¬OneLine (Renpy.Remark.maskSet "a\nb").text := by
  refine ⟨⟨oneLineNames_default.bank, oneLineNames_default.flag⟩, ?_, by decide +kernel⟩
  have hbuild : BlockGraph.build (Bytecode.decode .standard true brokenMask)
      = ⟨[⟨0, some 5, .linear, none, none, [], []⟩]⟩ :=
    BlockGraph.build_eq_of_perm (by decide +kernel) (by decide)
  rw [(transpile_of_build "a" brokenMask { includeListing := false } hbuild).1]
  decide +kernel

end Rio
