import SourceAtlas.Model.Kinds

/-!
# Limits

How much work goes into files that are read without a grammar: the sizes that
decide on a tier, and what each tier may collect.
-/

namespace SourceAtlas

/-- How the tier of a file is chosen. -/
inductive TierChoice
  /-- By the size of the file. -/
  | auto
  | forced (tier : Tier)
  deriving DecidableEq, Repr, Inhabited

namespace TierChoice

def name : TierChoice → String
  | auto => "auto"
  | forced tier => tier.name

def all : List TierChoice := auto :: Tier.all.map forced

/-- The tier that holds for every file, if one is forced. -/
def forced? : TierChoice → Option Tier
  | auto => none
  | forced tier => some tier

def parse (text : String) : Except String TierChoice :=
  if Text.lowerAscii text.toList = "auto".toList then .ok auto
  else (Tier.parse text).map forced

end TierChoice

/-- Limits on the work per file. -/
structure Limits where
  /-- Files above this size get the partial tier. -/
  mediumFileBytes : Nat
  /-- Files above this size get the minimal tier. -/
  largeFileBytes : Nat
  /-- Lines that the minimal tier reads. -/
  minimalLineLimit : Nat
  /-- Methods that the partial tier collects. -/
  partialMethodLimit : Nat
  /-- Constants that the partial tier collects. -/
  partialConstantLimit : Nat
  /-- Milliseconds after which reading a file stops. -/
  timeBudget : Nat
  tier : TierChoice
  deriving DecidableEq, Inhabited

namespace Limits

def standard : Limits :=
  { mediumFileBytes := 50000, largeFileBytes := 150000, minimalLineLimit := 400,
    partialMethodLimit := 5, partialConstantLimit := 20, timeBudget := 2000, tier := .auto }

def tierOfSize (limits : Limits) (bytes : Nat) : Tier :=
  if limits.largeFileBytes < bytes then .minimal
  else if limits.mediumFileBytes < bytes then .partly
  else .full

/-- Whether the time budget is spent before any work is done.  Time is not
modelled, so this is the only budget that is ever spent. -/
def isSpent (limits : Limits) : Bool :=
  limits.timeBudget = 0

end Limits

end SourceAtlas
