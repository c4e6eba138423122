import PanelSource.Main
import PanelSource.Proofs.Http.Names
import PanelSource.Proofs.Http.Preview
import PanelSource.Proofs.Launch.Pool
import PanelSource.Proofs.Panel.Buckets
import PanelSource.Proofs.Panel.DistinctTexts
import PanelSource.Proofs.Panel.Listing
import PanelSource.Proofs.Panel.RangeEnds
import PanelSource.Proofs.Panel.SavedRange
import PanelSource.Proofs.Panel.Suggestions
import PanelSource.Proofs.Query.BoundClauses
import PanelSource.Proofs.Query.DescriptionSpellings
import PanelSource.Proofs.Query.FilterReading
import PanelSource.Proofs.Result.ColumnOrder
import PanelSource.Proofs.Result.GroupColumns
import PanelSource.Proofs.Result.GroupValues
import PanelSource.Proofs.Result.RowShapes
import PanelSource.Proofs.Result.Targets
import PanelSource.Proofs.Result.TimeCells
import PanelSource.Proofs.Result.TimeOrder
import PanelSource.Store.Literal
