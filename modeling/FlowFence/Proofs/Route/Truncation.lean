import FlowFence.Proofs.Route.Blocks

/-!
# Routes of replies that are cut off

A group that is cut off is read as far as it goes, so the front of a block can be another route than
the block. It differs from the route of the block in what was cut off only.
-/

namespace FlowFence

open ControlSocket (reply?)
open Route (HeaderEnded Shares communityLabel? parse)
open Text (Closes)

/--
Whether a text is a front of a block with trimmings behind it, and is read like the block as far as
the front goes.
-/
def ReadsAlike (block other : List Char) : Prop :=
  ∃ part tail, part <+: block ∧ other = part ++ tail ∧ Dump.IsTrimming tail ∧
    ∀ route found, parse block = .ok route → parse other = .ok found →
      Shares part block other route found

theorem readsAlike_of_alike {block other : List Char} (h : Dump.Alike block other) :
    ReadsAlike block other := by
  obtain ⟨part, rest, tail, rfl, rfl, htail⟩ := h
  exact ⟨part, tail, List.prefix_append _ _, rfl, htail,
    fun route found => Route.shares_of_inert htail.inert⟩

theorem shares_of_cut {block cut : List Char} (hcut : cut <+: block) {route found : Route}
    (h : parse block = .ok route) (hfound : parse cut = .ok found) :
    Shares cut block cut route found := by
  obtain ⟨rest, rfl⟩ := hcut
  have hshares : Shares cut (cut ++ rest) (cut ++ []) route found :=
    Route.shares_of_inert Route.inert_nil h (by simpa using hfound)
  simpa using hshares

theorem parse_of_cut {block cut label : List Char} (hcut : cut <+: block) {route : Route}
    (h : parse block = .ok route) (hheader : HeaderEnded cut)
    (hlabel : communityLabel? block = some label) (hclosed : Closes label [')'] cut) :
    parse cut = .ok route := by
  obtain ⟨rest, rfl⟩ := hcut
  exact Route.parse_part h hheader hlabel hclosed

theorem readsAlike_of_reply? {stream received : List UInt8} (hreceived : received <+: stream)
    {dump cut : List Char} (h : reply? stream = .ok dump) (hcut : reply? received = .ok cut) :
    ∃ firsts, firsts <+: Dump.blocks dump ∧ List.Forall₂ ReadsAlike firsts (Dump.blocks cut) := by
  obtain ⟨more, rfl⟩ := hreceived
  obtain ⟨front, rest, ending, rfl, rfl, hending⟩ := ControlSocket.exists_front_of_reply? h hcut
  obtain ⟨-, firsts, hfirsts, halike⟩ := Dump.exists_alike_blocks hending front rest
  exact ⟨firsts, hfirsts, halike.imp fun _ _ => readsAlike_of_alike⟩

/--
The front of a block that is read as a route has in common with the route of the block what is read
from groups that are whole in the front, and the action unless the community is another one. It is
that route if the first line and the community are whole. The blocks of a reply that stops after any
number of bytes are the first blocks of the reply, each read alike in this way.
-/
theorem cut_routes_share_whole_groups :
    (∀ (block cut : List Char) (route found : Route), cut <+: block → parse block = .ok route →
      parse cut = .ok found → Shares cut block cut route found) ∧
    (∀ (block cut : List Char) (route : Route), cut <+: block → parse block = .ok route →
      HeaderEnded cut → (∃ label ∈ communityLabel? block, Closes label [')'] cut) →
        parse cut = .ok route) ∧
    (∀ (stream received : List UInt8) (dump cut : List Char), received <+: stream →
      reply? stream = .ok dump → reply? received = .ok cut →
        ∃ firsts, firsts <+: Dump.blocks dump ∧
          List.Forall₂ ReadsAlike firsts (Dump.blocks cut)) := by
  refine ⟨?_, ?_, ?_⟩
  · intro block cut route found hcut h hfound
    exact shares_of_cut hcut h hfound
  · intro block cut route hcut h hheader hwhole
    obtain ⟨label, hlabel, hclosed⟩ := hwhole
    exact parse_of_cut hcut h hheader hlabel hclosed
  · intro stream received dump cut hreceived h hcut
    exact readsAlike_of_reply? hreceived h hcut

/-! ## A cut that changes a route -/

def rateBlock : List Char :=
  ("flow4 { dst 203.0.113.0/24; } [flowspec1 2024-05-01 from 192.0.2.1]\n" ++
    "\tBGP.ext_community: (generic, 0x80060000, 0x4ac80000)\n").toList

def rateCut : List Char :=
  rateBlock.take 119

def rateRoute : Route where
  session := ⟨"flowspec1", .v4 0xC0000201, "2024-05-01"⟩
  criteria := { destination := some ⟨.v4 0xCB007100, 24⟩ }
  action := .rateBytes
  argument := 6553600

theorem parse_rateBlock : parse rateBlock = .ok rateRoute := by
  decide +kernel

theorem parse_rateCut : parse rateCut = .ok { rateRoute with argument := 0 } := by
  decide +kernel

/-- With the last digit of its rate missing, the limit of a block becomes a drop of everything. -/
theorem cut_block_is_another_route :
    ¬ ∀ (block cut : List Char) (route : Route), parse block = .ok route → cut <+: block →
      (∃ e, parse cut = .error e) ∨ parse cut = .ok route := by
  intro hall
  have hcut : rateCut <+: rateBlock := List.take_prefix 119 rateBlock
  rcases hall rateBlock rateCut rateRoute parse_rateBlock hcut with ⟨e, herror⟩ | hsame
  · rw [parse_rateCut] at herror
    cases herror
  · rw [parse_rateCut] at hsame
    have hargument := congrArg Route.argument (Except.ok.inj hsame)
    exact absurd hargument (by decide)

/-- The cut leaves the session, the criteria and the action of the block as they are. -/
theorem rateCut_shares_whole_groups :
    rateCut <+: rateBlock ∧ parse rateBlock = .ok rateRoute ∧
      Shares rateCut rateBlock rateCut rateRoute { rateRoute with argument := 0 } ∧
      parse (rateBlock.take 121) = .ok rateRoute ∧
      ∃ firsts, firsts <+: Dump.blocks rateBlock ∧
        List.Forall₂ ReadsAlike firsts (Dump.blocks (rateCut ++ ['\n'])) := by
  obtain ⟨hshares, hwhole, hreplies⟩ := cut_routes_share_whole_groups
  have hcut : rateCut <+: rateBlock := List.take_prefix 119 rateBlock
  have hheader : HeaderEnded (rateBlock.take 121) := by
    decide +kernel
  have hlabel : communityLabel? rateBlock = some "BGP.ext_community: (".toList := by
    decide +kernel
  have hclosed : Closes "BGP.ext_community: (".toList [')'] (rateBlock.take 121) := by
    decide +kernel
  have hreceived : (Utf8.encode rateBlock).take 119 <+: Utf8.encode rateBlock :=
    List.take_prefix 119 _
  exact ⟨hcut, parse_rateBlock, hshares _ _ _ _ hcut parse_rateBlock parse_rateCut,
    hwhole _ _ _ (List.take_prefix 121 rateBlock) parse_rateBlock hheader ⟨_, hlabel, hclosed⟩,
    hreplies _ _ _ _ hreceived (by decide +kernel) (by decide +kernel)⟩

end FlowFence
