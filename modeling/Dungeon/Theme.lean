import Dungeon.Code
import Dungeon.Identifier
import Dungeon.Number

/-!
# Themes

A theme names a kind of place. The catalogue says for each what layout and densities suit it and
which words describe it; an area template starts from these. A theme is found by its identifier or
by its display name.
-/

namespace Dungeon

/-- How rooms and corridors are laid out. A stored code beyond the three listed ones is kept as it
is. -/
inductive Algorithm where
  /-- Rooms in the leaves of a binary partition of the map. -/
  | partition
  /-- One cave grown by a cellular automaton. -/
  | cavern
  /-- Rooms scattered at random. -/
  | scatter
  | unlisted (c : Unlisted 3)
  deriving DecidableEq, Repr, Inhabited

namespace Algorithm

def code : Algorithm → UInt8
  | partition => 0
  | cavern => 1
  | scatter => 2
  | unlisted c => c.code

def ofCode (c : UInt8) : Algorithm :=
  if h : 3 ≤ c then unlisted ⟨c, h⟩
  else
    match c with
    | 0 => partition
    | 1 => cavern
    | _ => scatter

/-- The identifier of a layout. Unlisted ones are written as the first. -/
def id : Algorithm → Text
  | partition => "bsp"
  | cavern => "cellular"
  | scatter => "simple_random"
  | unlisted _ => "bsp"

/-- The identifiers by which each layout is found. -/
def aliases : List (Algorithm × List Text) :=
  [(partition, ["bsp", "binary_space_partition"]),
   (cavern, ["cellular", "cellular_automata", "cave"]),
   (scatter, ["simple_random", "simple", "scatter"])]

/-- The layout that a name means. -/
def ofName? (name : Text) : Option Algorithm :=
  (aliases.find? fun entry => entry.2.contains (Identifier.ofName name)).map (·.1)

/-- Looks up the layout that a name means, for a caller who hands over a layout. -/
def lookUp (name : Text) (layout : Algorithm) : Bool × Algorithm :=
  Identifier.lookUp ofName? name layout

end Algorithm

/-- A kind of place. A stored code beyond the eight listed ones is kept as it is. -/
inductive Theme where
  | dungeon
  | cave
  | forest
  | ruins
  | castle
  | temple
  | sewers
  | undergroundCity
  | unlisted (c : Unlisted 8)
  deriving DecidableEq, Repr, Inhabited

namespace Theme

def code : Theme → UInt8
  | dungeon => 0
  | cave => 1
  | forest => 2
  | ruins => 3
  | castle => 4
  | temple => 5
  | sewers => 6
  | undergroundCity => 7
  | unlisted c => c.code

def ofCode (c : UInt8) : Theme :=
  if h : 8 ≤ c then unlisted ⟨c, h⟩
  else
    match c with
    | 0 => dungeon
    | 1 => cave
    | 2 => forest
    | 3 => ruins
    | 4 => castle
    | 5 => temple
    | 6 => sewers
    | _ => undergroundCity

/-- The themes of the catalogue, in order. -/
def all : List Theme := [dungeon, cave, forest, ruins, castle, temple, sewers, undergroundCity]

end Theme

/-- What the catalogue says about a theme. -/
structure ThemeInfo where
  theme : Theme
  id : Text
  display : Text
  description : Text
  algorithm : Algorithm
  monsterDensity : Number.Single
  treasureDensity : Number.Single
  trapDensity : Number.Single
  level : Int
  rooms : Vector Text 4
  tiles : Vector Text 4
  adjectives : Vector Text 4
  ambience : Vector Text 4

/-! ## The catalogue -/

namespace Catalogue

open Number.Binary (percent)

def dungeonInfo : ThemeInfo where
  theme := .dungeon
  id := "dungeon"
  display := "Dungeon"
  description := "A dark underground dungeon with stone walls"
  algorithm := .partition
  monsterDensity := percent 60
  treasureDensity := percent 30
  trapDensity := percent 30
  level := 1
  rooms := #v["chamber", "cell", "vault", "guardroom"]
  tiles := #v["flagstones", "mortared walls", "iron grates", "worn steps"]
  adjectives := #v["damp", "shadowed", "cramped", "forgotten"]
  ambience :=
    #v["Water drips somewhere out of sight.", "Rusted chains hang from the ceiling.",
        "A cold draft carries the smell of old smoke.", "Scratches mark the passing of long days."]

def caveInfo : ThemeInfo where
  theme := .cave
  id := "cave"
  display := "Cave"
  description := "A natural limestone cave with organic passages"
  algorithm := .cavern
  monsterDensity := percent 40
  treasureDensity := percent 20
  trapDensity := percent 10
  level := 2
  rooms := #v["cavern", "grotto", "hollow", "gallery"]
  tiles := #v["limestone", "loose scree", "dripstone", "slick rock"]
  adjectives := #v["echoing", "glistening", "narrow", "vaulted"]
  ambience :=
    #v["Stalactites glitter in the dark.", "An underground stream murmurs nearby.",
        "Bats shift and chitter overhead.", "Pale fungus clings to the walls."]

def forestInfo : ThemeInfo where
  theme := .forest
  id := "forest"
  display := "Forest"
  description := "A dense magical forest with twisted paths"
  algorithm := .scatter
  monsterDensity := percent 30
  treasureDensity := percent 20
  trapDensity := percent 10
  level := 1
  rooms := #v["clearing", "glade", "thicket", "hollow"]
  tiles := #v["moss", "tangled roots", "fallen leaves", "soft loam"]
  adjectives := #v["sun-dappled", "overgrown", "misty", "whispering"]
  ambience :=
    #v["Birdsong falls suddenly silent.", "Glowing motes drift between the trunks.",
        "The branches creak without wind.", "Wild mushrooms ring an old stump."]

def ruinsInfo : ThemeInfo where
  theme := .ruins
  id := "ruins"
  display := "Ancient Ruins"
  description := "Crumbling ancient structures overgrown with nature"
  algorithm := .partition
  monsterDensity := percent 50
  treasureDensity := percent 40
  trapDensity := percent 20
  level := 3
  rooms := #v["hall", "courtyard", "shrine", "atrium"]
  tiles := #v["cracked tiles", "toppled columns", "rubble", "ivy-choked stone"]
  adjectives := #v["crumbling", "sunken", "weathered", "half-buried"]
  ambience :=
    #v["Faded murals hint at a lost empire.", "Roots have split the old masonry.",
        "A broken statue watches the doorway.", "Dust hangs in shafts of light."]

def castleInfo : ThemeInfo where
  theme := .castle
  id := "castle"
  display := "Castle"
  description := "An imposing fortress with fortified halls"
  algorithm := .partition
  monsterDensity := percent 70
  treasureDensity := percent 30
  trapDensity := percent 20
  level := 5
  rooms := #v["hall", "barracks", "armory", "gallery"]
  tiles := #v["polished stone", "oak planks", "woven rugs", "arrow slits"]
  adjectives := #v["grand", "fortified", "banner-hung", "austere"]
  ambience :=
    #v["Tattered banners sway on the walls.", "Torch brackets line the room.",
        "Distant boots echo on stone.", "A suit of armor stands at attention."]

def templeInfo : ThemeInfo where
  theme := .temple
  id := "temple"
  display := "Temple"
  description := "A sacred temple with mystical architecture"
  algorithm := .cavern
  monsterDensity := percent 40
  treasureDensity := percent 50
  trapDensity := percent 30
  level := 4
  rooms := #v["sanctum", "nave", "cloister", "reliquary"]
  tiles := #v["inlaid marble", "carved glyphs", "incense ash", "gilded mosaics"]
  adjectives := #v["hallowed", "silent", "candlelit", "ornate"]
  ambience :=
    #v["Old chants seem to linger in the air.", "Candles burn with a steady blue flame.",
        "Offerings lie untouched on an altar.", "Carved eyes follow every step."]

def sewersInfo : ThemeInfo where
  theme := .sewers
  id := "sewers"
  display := "Sewers"
  description := "Disgusting underground sewage tunnels"
  algorithm := .cavern
  monsterDensity := percent 50
  treasureDensity := percent 10
  trapDensity := percent 20
  level := 2
  rooms := #v["tunnel", "cistern", "junction", "outflow"]
  tiles := #v["slime", "brick culverts", "stagnant water", "rusted pipes"]
  adjectives := #v["fetid", "dripping", "murky", "choked"]
  ambience :=
    #v["Something skitters through the runoff.", "The stench is almost overwhelming.",
        "Water roars through a grate below.", "Rats watch from a crumbling ledge."]

def undergroundCityInfo : ThemeInfo where
  theme := .undergroundCity
  id := "underground_city"
  display := "Underground City"
  description := "An ancient dwarven city deep below the surface"
  algorithm := .scatter
  monsterDensity := percent 30
  treasureDensity := percent 40
  trapDensity := percent 10
  level := 6
  rooms := #v["plaza", "forge hall", "market", "gatehouse"]
  tiles := #v["hewn granite", "bronze inlays", "cobbles", "rune-carved pillars"]
  adjectives := #v["vast", "abandoned", "lantern-lit", "deep-delved"]
  ambience :=
    #v["Great chains lift a silent elevator.", "Cold forges wait for their smiths.",
        "Stone faces of old kings line the walls.", "The hum of deep machinery never stops."]

end Catalogue

namespace Theme

/-- The catalogue's page on a theme. Unlisted themes have the first page. -/
def info : Theme → ThemeInfo
  | dungeon => Catalogue.dungeonInfo
  | cave => Catalogue.caveInfo
  | forest => Catalogue.forestInfo
  | ruins => Catalogue.ruinsInfo
  | castle => Catalogue.castleInfo
  | temple => Catalogue.templeInfo
  | sewers => Catalogue.sewersInfo
  | undergroundCity => Catalogue.undergroundCityInfo
  | unlisted _ => Catalogue.dungeonInfo

/-- The theme goes by this identifier. -/
def hasIdentifier (t : Theme) (identifier : Text) : Bool :=
  identifier == t.info.id || identifier == Identifier.ofName t.info.display

/-- The theme that a name means. -/
def ofName? (name : Text) : Option Theme :=
  let identifier := Identifier.ofName name
  match all.find? fun t => t.hasIdentifier identifier with
  | some t => some t
  | none => if identifier = Text.lit "city" then some undergroundCity else none

/-- Looks up the theme that a name means, for a caller who hands over a theme. -/
def lookUp (name : Text) (theme : Theme) : Bool × Theme := Identifier.lookUp ofName? name theme

end Theme
end Dungeon
